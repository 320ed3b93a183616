import RunControl.Json.Number

namespace RunControl.Json

mutual

/-- A value. A string is `none` when it spells half of a surrogate pair. -/
inductive Node where
  | null
  | bool (b : Bool)
  | num (lexeme : List Char)
  | str (text : Option String)
  | seq (items : Items)
  | map (members : Members)
  | broken

inductive Items where
  | closed
  | broken
  | cons (head : Node) (tail : Items)

inductive Members where
  | closed
  | broken
  | cons (key : Option String) (value : Node) (tail : Members)

end

deriving instance DecidableEq, Repr for Node, Items, Members

def Items.ofList (last : Items) : List Node → Items
  | [] => last
  | n :: ns => .cons n (Items.ofList last ns)

def Members.ofList (last : Members) : List (Option String × Node) → Members
  | [] => last
  | (k, n) :: ms => .cons k n (Members.ofList last ms)

mutual

def Node.intact : Node → Bool
  | .seq items => items.intact
  | .map members => members.intact
  | .broken => false
  | _ => true

def Items.intact : Items → Bool
  | .closed => true
  | .broken => false
  | .cons n r => n.intact && r.intact

def Members.intact : Members → Bool
  | .closed => true
  | .broken => false
  | .cons _ n r => n.intact && r.intact

end

mutual

def Node.bufferable (room : Nat) : Node → Bool
  | .null => true
  | .bool _ => true
  | .num lexeme => (Number.ofLexeme? lexeme).isSome
  | .str text => text.isSome
  | .seq items => 0 < room && items.bufferable (room - 1)
  | .map members => 0 < room && members.bufferable (room - 1)
  | .broken => false

def Items.bufferable (room : Nat) : Items → Bool
  | .closed => true
  | .broken => false
  | .cons n r => n.bufferable room && r.bufferable room

def Members.bufferable (room : Nat) : Members → Bool
  | .closed => true
  | .broken => false
  | .cons k n r => k.isSome && n.bufferable room && r.bufferable room

end

end RunControl.Json
