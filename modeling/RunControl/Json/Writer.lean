import RunControl.Json.Node

namespace RunControl.Json

def hexPair (n : Nat) : List Char :=
  [Nat.digitChar (n / 16), Nat.digitChar (n % 16)]

def escapeChar (c : Char) : List Char :=
  match c with
  | '"' => ['\\', '"']
  | '\\' => ['\\', '\\']
  | '\x08' => ['\\', 'b']
  | '\t' => ['\\', 't']
  | '\n' => ['\\', 'n']
  | '\x0c' => ['\\', 'f']
  | '\r' => ['\\', 'r']
  | c => if c.toNat < 0x20 then '\\' :: 'u' :: '0' :: '0' :: hexPair c.toNat else [c]

def renderText : Option String → List Char
  | some s => '"' :: s.toList.flatMap escapeChar ++ ['"']
  | none => ['"', '\\', 'u', 'd', '8', '0', '0', '"']

mutual

def Node.render : Node → List Char
  | .null => ['n', 'u', 'l', 'l']
  | .bool true => ['t', 'r', 'u', 'e']
  | .bool false => ['f', 'a', 'l', 's', 'e']
  | .num lexeme => lexeme
  | .str text => renderText text
  | .seq items => '[' :: items.render []
  | .map members => '\x7b' :: members.render []
  | .broken => []

def Items.render (before : List Char) : Items → List Char
  | .closed => [']']
  | .broken => []
  | .cons n r => before ++ n.render ++ r.render [',']

def Members.render (before : List Char) : Members → List Char
  | .closed => ['\x7d']
  | .broken => []
  | .cons k n r => before ++ renderText k ++ ':' :: n.render ++ r.render [',']

end

namespace Node

def text (n : Node) : String :=
  String.ofList n.render

def ofNat (n : Nat) : Node :=
  .num (Nat.toDigits 10 n)

def ofString (s : String) : Node :=
  .str (some s)

def ofFloat (x : Float) : Node :=
  match realLexeme? x with
  | some lexeme => .num lexeme
  | none => .null

def list (ns : List Node) : Node :=
  .seq (Items.ofList .closed ns)

def object (members : List (String × Node)) : Node :=
  .map (Members.ofList .closed (members.map fun m => (some m.1, m.2)))

end Node

end RunControl.Json
