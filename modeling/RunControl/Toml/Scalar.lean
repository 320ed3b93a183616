import RunControl.Decimal.Nearest
import RunControl.Toml.Value

namespace RunControl.Toml.Scalar

def isScalarChar (c : Char) : Bool :=
  c.isAlphanum || c == '_' || c == '+' || c == '-' || c == '.' || c == ':'

def isHexDigit (c : Char) : Bool :=
  c.isDigit || ('a' ≤ c && c ≤ 'f') || ('A' ≤ c && c ≤ 'F')

def hexValue (c : Char) : Nat :=
  if c.isDigit then c.toNat - '0'.toNat
  else if 'a' ≤ c then c.toNat - 'a'.toNat + 10
  else c.toNat - 'A'.toNat + 10

def separated? (isDigit : Char → Bool) : List Char → Option (List Char)
  | [] => none
  | [c] => if isDigit c then some [c] else none
  | c :: '_' :: cs => if isDigit c then (separated? isDigit cs).map (c :: ·) else none
  | c :: cs => if isDigit c then (separated? isDigit cs).map (c :: ·) else none

def whole? (cs : List Char) : Option (List Char) :=
  match cs with
  | '0' :: _ :: _ => none
  | cs => separated? Char.isDigit cs

def splitSign : List Char → Bool × List Char
  | '+' :: cs => (false, cs)
  | '-' :: cs => (true, cs)
  | cs => (false, cs)

def fits (n : Int) : Option Value :=
  if -0x8000000000000000 ≤ n ∧ n < 0x8000000000000000 then some (.integer n) else none

def radixValue (radix : Nat) (cs : List Char) : Int :=
  cs.foldl (fun n c => n * radix + hexValue c) (0 : Nat)

def integer? (cs : List Char) : Option Value :=
  match cs with
  | '0' :: 'x' :: ds => (separated? isHexDigit ds).bind fun ds => fits (radixValue 16 ds)
  | '0' :: 'o' :: ds =>
      (separated? (fun c => '0' ≤ c && c ≤ '7') ds).bind fun ds => fits (radixValue 8 ds)
  | '0' :: 'b' :: ds =>
      (separated? (fun c => c == '0' || c == '1') ds).bind fun ds => fits (radixValue 2 ds)
  | cs =>
      let (minus, ds) := splitSign cs
      (whole? ds).bind fun ds => fits (if minus then -radixValue 10 ds else radixValue 10 ds)

def exponent? (cs : List Char) : Option Int :=
  let (minus, ds) := splitSign cs
  (separated? Char.isDigit ds).map fun ds =>
    let n : Int := Decimal.digitsValue ds
    if minus then -n else n

def exponentPart? : List Char → Option Int
  | [] => some 0
  | _ :: cs => exponent? cs

def isMark (c : Char) : Bool :=
  c == 'e' || c == 'E'

def unsigned? (cs : List Char) : Option Float := do
  let before := cs.takeWhile (fun c => c != '.' && !isMark c)
  let rest := cs.dropWhile (fun c => c != '.' && !isMark c)
  let whole ← whole? before
  match rest with
  | [] => none
  | '.' :: rest =>
      let fraction ← separated? Char.isDigit (rest.takeWhile (!isMark ·))
      let e ← exponentPart? (rest.dropWhile (!isMark ·))
      return Decimal.nearestOf whole fraction e
  | rest =>
      let e ← exponentPart? rest
      return Decimal.nearestOf whole [] e

def float? (cs : List Char) : Option Value := do
  let (minus, ds) := splitSign cs
  if ds = ['i', 'n', 'f'] then return .float (if minus then -1 / 0 else 1 / 0)
  else if ds = ['n', 'a', 'n'] then return .float (0 / 0)
  else
    let x ← unsigned? ds
    if x.isInf ∧ !minus then none else return .float (if minus then -x else x)

def digits? (count : Nat) (cs : List Char) : Option (Nat × List Char) :=
  let ds := cs.take count
  if ds.length = count ∧ ds.all Char.isDigit then
    some (Decimal.digitsValue ds, cs.drop count)
  else none

def isLeap (year : Nat) : Bool :=
  year % 4 == 0 && (year % 100 != 0 || year % 400 == 0)

def daysIn (year month : Nat) : Nat :=
  if month = 2 then (if isLeap year then 29 else 28)
  else if month = 4 ∨ month = 6 ∨ month = 9 ∨ month = 11 then 30
  else 31

def afterDate? (cs : List Char) : Option (List Char) := do
  let (year, cs) ← digits? 4 cs
  let '-' :: cs := cs | none
  let (month, cs) ← digits? 2 cs
  let '-' :: cs := cs | none
  let (day, cs) ← digits? 2 cs
  if 1 ≤ month ∧ month ≤ 12 ∧ 1 ≤ day ∧ day ≤ daysIn year month then some cs else none

def afterFraction? : List Char → Option (List Char)
  | '.' :: c :: cs => if c.isDigit then some (cs.dropWhile Char.isDigit) else none
  | '.' :: [] => none
  | cs => some cs

def afterTime? (cs : List Char) : Option (List Char) := do
  let (hour, cs) ← digits? 2 cs
  let ':' :: cs := cs | none
  let (minute, cs) ← digits? 2 cs
  let ':' :: cs := cs | none
  let (second, cs) ← digits? 2 cs
  if hour < 24 ∧ minute < 60 ∧ second ≤ 60 then afterFraction? cs else none

def isOffset : List Char → Bool
  | [] => true
  | ['Z'] => true
  | ['z'] => true
  | sign :: cs =>
      (sign == '+' || sign == '-') &&
        match digits? 2 cs with
        | some (hour, ':' :: cs) =>
            match digits? 2 cs with
            | some (minute, []) => hour < 24 && minute < 60
            | _ => false
        | _ => false

def isTime (cs : List Char) : Bool :=
  afterTime? cs == some []

def isTimeWithOffset (cs : List Char) : Bool :=
  (afterTime? cs).any isOffset

def isDate (cs : List Char) : Bool :=
  afterDate? cs == some []

def moment? (cs : List Char) : Option Value :=
  match afterDate? cs with
  | some [] => some .moment
  | some (mark :: rest) =>
      if (mark == 'T' || mark == 't') && isTimeWithOffset rest then some .moment else none
  | none => if isTime cs then some .moment else none

def value? (cs : List Char) : Option Value :=
  if cs = ['t', 'r', 'u', 'e'] then some (.boolean true)
  else if cs = ['f', 'a', 'l', 's', 'e'] then some (.boolean false)
  else (moment? cs).orElse fun _ => (float? cs).orElse fun _ => integer? cs

def read? (cs : List Char) : Option (Value × List Char) := do
  let token := cs.takeWhile isScalarChar
  let rest := cs.dropWhile isScalarChar
  let v ← value? token
  match rest with
  | ' ' :: more =>
      let time := more.takeWhile isScalarChar
      if isDate token && isTimeWithOffset time then
        return (v, more.dropWhile isScalarChar)
      else return (v, rest)
  | _ => return (v, rest)

end RunControl.Toml.Scalar
