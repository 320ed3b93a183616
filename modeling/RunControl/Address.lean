import RunControl.Text.Quoted

namespace RunControl

abbrev Address := UInt32

inductive NumeralFault where
  | empty
  | invalidDigit
  | tooLarge
  deriving DecidableEq, Repr

def NumeralFault.message : NumeralFault → String
  | .empty => "cannot parse integer from empty string"
  | .invalidDigit => "invalid digit found in string"
  | .tooLarge => "number too large to fit in target type"

namespace Numeral

def digit? (radix : Nat) (c : Char) : Option Nat :=
  let n := c.toNat
  let value :=
    if '0' ≤ c ∧ c ≤ '9' then n - '0'.toNat
    else if 'a' ≤ c ∧ c ≤ 'f' then n - 'a'.toNat + 10
    else if 'A' ≤ c ∧ c ≤ 'F' then n - 'A'.toNat + 10
    else radix
  if value < radix then some value else none

def readFrom (radix value : Nat) : List Char → Except NumeralFault Address
  | [] => .ok (UInt32.ofNat value)
  | c :: cs =>
      match digit? radix c with
      | none => .error .invalidDigit
      | some d =>
          if value * radix + d < 0x100000000 then readFrom radix (value * radix + d) cs
          else .error .tooLarge

def read (radix : Nat) : List Char → Except NumeralFault Address
  | [] => .error .empty
  | ['+'] => .error .invalidDigit
  | '+' :: cs => readFrom radix 0 cs
  | cs => readFrom radix 0 cs

def afterMarker? : List Char → Option (List Char)
  | '0' :: 'x' :: cs => some cs
  | '0' :: 'X' :: cs => some cs
  | _ => none

def isHexDigit (c : Char) : Bool :=
  (digit? 16 c).isSome

end Numeral

namespace Address

def read (text : String) : Except NumeralFault Address :=
  let cs := text.toList
  Numeral.read 16 ((Numeral.afterMarker? cs).getD cs)

def readMessage (text : String) (fault : NumeralFault) : String :=
  s!"invalid address {Text.Quoted.encode text}: {fault.message}"

def readKey (text : String) : Except NumeralFault Address :=
  match Numeral.afterMarker? text.toList with
  | some cs => Numeral.read 16 cs
  | none => Numeral.read 10 text.toList

def readBare? (text : String) : Option Address :=
  let cs := text.toList
  if cs.isEmpty || !cs.all Numeral.isHexDigit then none
  else (Numeral.readFrom 16 0 cs).toOption

def hexDigits (n : Nat) : List Char :=
  Nat.toDigits 16 n

def bare (a : Address) : String :=
  String.ofList ((hexDigits a.toNat).leftpad 8 '0')

def marked (a : Address) : String :=
  "0x" ++ bare a

def offset (n : Address) : String :=
  "0x" ++ String.ofList (hexDigits n.toNat)

end Address

end RunControl
