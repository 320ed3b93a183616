import RunControl.Json.Node

namespace RunControl.Json

def isBlank (c : Char) : Bool :=
  c == ' ' || c == '\n' || c == '\t' || c == '\r'

inductive NumeralPart where
  | minus
  | zero
  | padded
  | whole
  | point
  | fraction
  | mark
  | sign
  | exponent
  deriving DecidableEq, Repr

namespace NumeralPart

def next? (p : NumeralPart) (c : Char) : Option NumeralPart :=
  match p with
  | .minus => if c = '0' then some .zero else if c.isDigit then some .whole else none
  | .zero =>
      if c.isDigit then some .padded
      else if c = '.' then some .point
      else if c = 'e' ∨ c = 'E' then some .mark
      else none
  | .padded => none
  | .whole =>
      if c.isDigit then some .whole
      else if c = '.' then some .point
      else if c = 'e' ∨ c = 'E' then some .mark
      else none
  | .point => if c.isDigit then some .fraction else none
  | .fraction =>
      if c.isDigit then some .fraction
      else if c = 'e' ∨ c = 'E' then some .mark
      else none
  | .mark =>
      if c.isDigit then some .exponent
      else if c = '+' ∨ c = '-' then some .sign
      else none
  | .sign => if c.isDigit then some .exponent else none
  | .exponent => if c.isDigit then some .exponent else none

def mayEnd : NumeralPart → Bool
  | .zero | .whole | .fraction | .exponent => true
  | _ => false

end NumeralPart

structure TextSoFar where
  reversed : List Char
  high : Option Nat
  whole : Bool
  deriving DecidableEq, Repr

namespace TextSoFar

def empty : TextSoFar := ⟨[], none, true⟩

def push (t : TextSoFar) (c : Char) : TextSoFar :=
  ⟨c :: t.reversed, none, t.whole && t.high.isNone⟩

def pushUnit (t : TextSoFar) (n : Nat) : TextSoFar :=
  if 0xd800 ≤ n ∧ n < 0xdc00 then { t with high := some n, whole := t.whole && t.high.isNone }
  else if 0xdc00 ≤ n ∧ n < 0xe000 then
    match t.high with
    | some h =>
        { t with
          reversed := Char.ofNat (0x10000 + (h - 0xd800) * 0x400 + (n - 0xdc00)) :: t.reversed
          high := none }
    | none => { t with whole := false }
  else t.push (Char.ofNat n)

def close (t : TextSoFar) : Option String :=
  if t.whole && t.high.isNone then some (String.ofList t.reversed.reverse) else none

end TextSoFar

def escaped? (c : Char) : Option Char :=
  match c with
  | '"' => some '"'
  | '\\' => some '\\'
  | '/' => some '/'
  | 'b' => some '\x08'
  | 'f' => some '\x0c'
  | 'n' => some '\n'
  | 'r' => some '\r'
  | 't' => some '\t'
  | _ => none

def hexDigit? (c : Char) : Option Nat :=
  if c.isDigit then some (c.toNat - '0'.toNat)
  else if 'a' ≤ c ∧ c ≤ 'f' then some (c.toNat - 'a'.toNat + 10)
  else if 'A' ≤ c ∧ c ≤ 'F' then some (c.toNat - 'A'.toNat + 10)
  else none

inductive Token where
  | between
  | literal (due : List Char) (node : Node)
  | numeral (part : NumeralPart) (reversed : List Char)
  | string (text : TextSoFar)
  | escape (text : TextSoFar)
  | unit (text : TextSoFar) (digits value : Nat)
  deriving DecidableEq, Repr

/-- A list or object that is open, with what was read of it, last first, and with what is due. -/
inductive Frame where
  | firstItem
  | item (items : List Node)
  | afterItem (items : List Node)
  | firstKey
  | key (members : List (Option String × Node))
  | colon (members : List (Option String × Node)) (key : Option String)
  | value (members : List (Option String × Node)) (key : Option String)
  | afterValue (members : List (Option String × Node))
  deriving DecidableEq, Repr

def Frame.plug (under : Option Node) : Frame → Node
  | .firstItem => .seq (Items.ofList .broken under.toList)
  | .item items => .seq (Items.ofList .broken (items.reverse ++ under.toList))
  | .afterItem items => .seq (Items.ofList .broken items.reverse)
  | .firstKey => .map .broken
  | .key members => .map (Members.ofList .broken members.reverse)
  | .colon members k => .map (Members.ofList .broken ((k, .broken) :: members).reverse)
  | .value members k =>
      .map (Members.ofList .broken ((k, under.getD .broken) :: members).reverse)
  | .afterValue members => .map (Members.ofList .broken members.reverse)

def plugAll (under : Option Node) (frames : List Frame) : Node :=
  (frames.foldl (fun n f => some (f.plug n)) under).getD .broken

inductive State where
  | reading (token : Token) (frames : List Frame)
  | finished (node : Node) (unread : List Char)
  deriving DecidableEq, Repr

namespace State

def fail (under : Option Node) (frames : List Frame) : State :=
  .finished (plugAll under frames) []

def complete (n : Node) : List Frame → State
  | [] => .finished n []
  | .firstItem :: fs => .reading .between (.afterItem [n] :: fs)
  | .item items :: fs => .reading .between (.afterItem (n :: items) :: fs)
  | .value members k :: fs => .reading .between (.afterValue ((k, n) :: members) :: fs)
  | fs => fail (some n) fs

def completeText (t : Option String) : List Frame → State
  | .firstKey :: fs => .reading .between (.colon [] t :: fs)
  | .key members :: fs => .reading .between (.colon members t :: fs)
  | fs => complete (.str t) fs

def begin (c : Char) (frames : List Frame) : State :=
  match c with
  | '"' => .reading (.string .empty) frames
  | '[' => .reading .between (.firstItem :: frames)
  | '\x7b' => .reading .between (.firstKey :: frames)
  | 'n' => .reading (.literal ['u', 'l', 'l'] .null) frames
  | 't' => .reading (.literal ['r', 'u', 'e'] (.bool true)) frames
  | 'f' => .reading (.literal ['a', 'l', 's', 'e'] (.bool false)) frames
  | '-' => .reading (.numeral .minus ['-']) frames
  | '0' => .reading (.numeral .zero ['0']) frames
  | c => if c.isDigit then .reading (.numeral .whole [c]) frames else fail none frames

def punctuate (c : Char) (frames : List Frame) : State :=
  if isBlank c then .reading .between frames
  else
    match frames with
    | .firstItem :: fs => if c = ']' then complete (.seq .closed) fs else begin c frames
    | .afterItem items :: fs =>
        if c = ',' then .reading .between (.item items :: fs)
        else if c = ']' then complete (.seq (Items.ofList .closed items.reverse)) fs
        else fail none frames
    | .firstKey :: fs =>
        if c = '\x7d' then complete (.map .closed) fs
        else if c = '"' then begin c frames
        else fail none frames
    | .key _ :: _ => if c = '"' then begin c frames else fail none frames
    | .colon members k :: fs =>
        if c = ':' then .reading .between (.value members k :: fs) else fail none frames
    | .afterValue members :: fs =>
        if c = ',' then .reading .between (.key members :: fs)
        else if c = '\x7d' then complete (.map (Members.ofList .closed members.reverse)) fs
        else fail none frames
    | _ => begin c frames

def resume (s : State) (c : Char) : State :=
  match s with
  | .reading .between fs => punctuate c fs
  | .finished n unread => .finished n (unread ++ [c])
  | s => s

def step (s : State) (c : Char) : State :=
  match s with
  | .finished n unread => .finished n (unread ++ [c])
  | .reading token fs =>
      match token with
      | .between => punctuate c fs
      | .literal [] n => resume (complete n fs) c
      | .literal [d] n => if c = d then complete n fs else fail (some .broken) fs
      | .literal (d :: ds) n =>
          if c = d then .reading (.literal ds n) fs else fail (some .broken) fs
      | .numeral p cs =>
          match p.next? c with
          | some q => .reading (.numeral q (c :: cs)) fs
          | none =>
              if p.mayEnd then resume (complete (.num cs.reverse) fs) c
              else fail (some .broken) fs
      | .string t =>
          if c = '"' then completeText t.close fs
          else if c = '\\' then .reading (.escape t) fs
          else if c.toNat < 0x20 then fail (some .broken) fs
          else .reading (.string (t.push c)) fs
      | .escape t =>
          if c = 'u' then .reading (.unit t 0 0) fs
          else
            match escaped? c with
            | some d => .reading (.string (t.push d)) fs
            | none => fail (some .broken) fs
      | .unit t k n =>
          match hexDigit? c with
          | some d =>
              if k < 3 then .reading (.unit t (k + 1) (n * 16 + d)) fs
              else .reading (.string (t.pushUnit (n * 16 + d))) fs
          | none => fail (some .broken) fs

def atEnd (s : State) : Node :=
  match s.step ' ' with
  | .finished n _ => n
  | .reading .between fs => plugAll none fs
  | .reading _ fs => plugAll (some .broken) fs

end State

def readFrom (s : State) : List Char → Node × List Char
  | [] => (s.atEnd, [])
  | c :: cs =>
      match s.step c with
      | .finished n unread => (n, unread ++ cs)
      | s' => readFrom s' cs

def read (cs : List Char) : Node × List Char :=
  readFrom (.reading .between []) cs

end RunControl.Json
