import RunControl.Decimal.Shortest

namespace RunControl.Json

inductive Number where
  | natural (n : Nat)
  | negative (n : Nat)
  | real (x : Float)
  deriving Repr

namespace Number

def digit (c : Char) : Nat :=
  c.toNat - '0'.toNat

structure Scaled where
  significand : Nat
  exponent : Int
  deriving DecidableEq, Repr

def Scaled.push? (s : Scaled) (c : Char) : Option Nat :=
  let n := s.significand * 10 + digit c
  if n < 0x10000000000000000 then some n else none

def Scaled.whole (s : Scaled) : List Char → Scaled
  | [] => s
  | c :: cs =>
      match s.push? c with
      | some n => Scaled.whole { s with significand := n } cs
      | none => { s with exponent := s.exponent + (cs.length + 1) }

def Scaled.fraction (s : Scaled) : List Char → Scaled
  | [] => s
  | c :: cs =>
      match s.push? c with
      | some n => Scaled.fraction ⟨n, s.exponent - 1⟩ cs
      | none => s

def tenPower (n : Nat) : Float :=
  Float.ofScientific 1 false n

def scaleDown (x : Float) (n : Nat) : Float :=
  if n ≤ 308 then x / tenPower n
  else if x == 0 then x
  else scaleDown (x / tenPower 308) (n - 308)
termination_by n

def scaleUp? (x : Float) (n : Nat) : Option Float :=
  if n ≤ 308 then
    let y := x * tenPower n
    if y.isInf then none else some y
  else if x == 0 then some x
  else none

def Scaled.toFloat? (s : Scaled) : Option Float :=
  let x := (UInt64.ofNat s.significand).toFloat
  if 0 ≤ s.exponent then scaleUp? x s.exponent.toNat
  else some (scaleDown x (-s.exponent).toNat)

def exponentValue? (digits : List Char) : Option Nat :=
  digits.foldl (fun acc c => acc.bind fun n =>
    if n * 10 + digit c < 0x80000000 then some (n * 10 + digit c) else none) (some 0)

def clampExponent (e : Int) : Int :=
  max (-0x80000000) (min 0x7fffffff e)

def Scaled.applyExponent (s : Scaled) (down : Bool) (digits : List Char) : Option Float :=
  match exponentValue? digits with
  | some n =>
      let e := if down then s.exponent - n else s.exponent + n
      Scaled.toFloat? { s with exponent := clampExponent e }
  | none => if s.significand = 0 ∨ down then some 0 else none

def splitFraction : List Char → Option (List Char) × List Char
  | '.' :: cs => (some (cs.takeWhile Char.isDigit), cs.dropWhile Char.isDigit)
  | cs => (none, cs)

def splitExponent : List Char → Option (Bool × List Char)
  | _ :: '-' :: cs => some (true, cs)
  | _ :: '+' :: cs => some (false, cs)
  | _ :: cs => some (false, cs)
  | [] => none

def signed (minus : Bool) (x : Float) : Number :=
  .real (if minus then -x else x)

def ofInteger (minus : Bool) (n : Nat) : Number :=
  if !minus then .natural n
  else if n = 0 ∨ 0x8000000000000000 < n then signed true (UInt64.ofNat n).toFloat
  else .negative n

def ofLexeme? (lexeme : List Char) : Option Number :=
  let minus := lexeme.head? == some '-'
  let body := if minus then lexeme.tail else lexeme
  let whole := Scaled.whole ⟨0, 0⟩ (body.takeWhile Char.isDigit)
  let (fraction, rest) := splitFraction (body.dropWhile Char.isDigit)
  let scaled := whole.fraction (fraction.getD [])
  match splitExponent rest with
  | some (down, digits) => (scaled.applyExponent down digits).map (signed minus)
  | none =>
      if fraction.isNone ∧ whole.exponent = 0 then some (ofInteger minus whole.significand)
      else scaled.toFloat?.map (signed minus)

end Number

def scientificText (s : Decimal.Scientific) : List Char :=
  let digits := Nat.toDigits 10 s.digits
  let point : Int := digits.length + s.exponent
  if 0 ≤ s.exponent ∧ point ≤ 16 then
    digits ++ List.replicate s.exponent.toNat '0' ++ ['.', '0']
  else if 0 < point ∧ point ≤ 16 then
    digits.take point.toNat ++ '.' :: digits.drop point.toNat
  else if -5 < point ∧ point ≤ 0 then
    '0' :: '.' :: (List.replicate (-point).toNat '0' ++ digits)
  else
    let power := (if 0 < point then "+" else "") ++ toString (point - 1)
    match digits with
    | [d] => d :: 'e' :: power.toList
    | d :: ds => d :: '.' :: (ds ++ 'e' :: power.toList)
    | [] => []

def realLexeme? (x : Float) : Option (List Char) :=
  match Decimal.Parts.ofFloat x with
  | .nan => none
  | .infinite _ => none
  | .zero minus => some ((if minus then ['-'] else []) ++ ['0', '.', '0'])
  | .finite minus m q =>
      some ((if minus then ['-'] else []) ++ scientificText (Decimal.shortest .even m q))

end RunControl.Json
