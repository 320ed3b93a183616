namespace RunControl.Decimal

structure Scientific where
  digits : Nat
  exponent : Int
  deriving DecidableEq, Repr

inductive Tie where
  | even
  | up
  deriving DecidableEq, Repr

def Tie.goesUp : Tie → Nat → Bool
  | .even, d => d % 2 == 1
  | .up, _ => true

def width (n : Nat) : Nat :=
  (Nat.toDigits 10 n).length

structure Interval where
  low : Nat
  value : Nat
  high : Nat
  scale : Nat
  closed : Bool

namespace Interval

def ofBinary (m : Nat) (q : Int) : Interval :=
  let below := if m = 0x10000000000000 ∧ q > -1074 then 1 else 2
  let up := Nat.pow 2 (q - 2).toNat
  { low := (4 * m - below) * up
    value := 4 * m * up
    high := (4 * m + 2) * up
    scale := Nat.pow 2 (2 - q).toNat
    closed := m % 2 = 0 }

def holds (i : Interval) (d : Nat) (k : Int) : Bool :=
  let x := d * Nat.pow 10 k.toNat * i.scale
  let down := Nat.pow 10 (-k).toNat
  if i.closed then i.low * down ≤ x && x ≤ i.high * down
  else i.low * down < x && x < i.high * down

def magnitude (i : Interval) : Int :=
  if i.scale ≤ i.value then (width (i.value / i.scale) : Int) - 1
  else -(width ((i.scale - 1) / i.value) : Int)

def neighbours (i : Interval) (tie : Tie) (k : Int) : Nat × Bool :=
  let num := i.value * Nat.pow 10 (-k).toNat
  let den := i.scale * Nat.pow 10 k.toNat
  let d := num / den
  let twice := 2 * (num % den)
  (d, den < twice || (den == twice && tie.goesUp d))

def atExponent? (i : Interval) (tie : Tie) (k : Int) : Option Scientific :=
  let (d, upper) := i.neighbours tie k
  let first := if upper then d + 1 else d
  let second := if upper then d else d + 1
  if i.holds first k then some ⟨first, k⟩
  else if i.holds second k then some ⟨second, k⟩
  else none

def search (i : Interval) (tie : Tie) (count : Nat) : Nat → Scientific
  | 0 => ⟨(i.neighbours tie (i.magnitude - count + 1)).1, i.magnitude - count + 1⟩
  | fuel + 1 =>
      match i.atExponent? tie (i.magnitude - count + 1) with
      | some r => r
      | none => search i tie (count + 1) fuel

end Interval

def Scientific.trimmed (s : Scientific) : Nat → Scientific
  | 0 => s
  | fuel + 1 =>
      if s.digits % 10 = 0 ∧ s.digits ≠ 0 then
        Scientific.trimmed ⟨s.digits / 10, s.exponent + 1⟩ fuel
      else s

def shortest (tie : Tie) (m : Nat) (q : Int) : Scientific :=
  ((Interval.ofBinary m q).search tie 1 17).trimmed 17

inductive Parts where
  | nan
  | infinite (negative : Bool)
  | zero (negative : Bool)
  | finite (negative : Bool) (m : Nat) (q : Int)
  deriving DecidableEq, Repr

def Parts.ofFloat (x : Float) : Parts :=
  let bits : Nat := x.toBits.toNat
  let negative : Bool := 0x8000000000000000 ≤ bits
  let e : Nat := bits / 0x10000000000000 % 0x800
  let f : Nat := bits % 0x10000000000000
  if e = 2047 then
    if f = 0 then .infinite negative else .nan
  else if e = 0 then
    if f = 0 then .zero negative else .finite negative f (-1074)
  else .finite negative (f + 0x10000000000000) ((e : Int) - 1075)

def positional (s : Scientific) : String :=
  let digits := Nat.toDigits 10 s.digits
  let point : Int := digits.length + s.exponent
  if 0 ≤ s.exponent then String.ofList (digits ++ List.replicate s.exponent.toNat '0')
  else if 0 < point then
    String.ofList (digits.take point.toNat ++ '.' :: digits.drop point.toNat)
  else String.ofList ('0' :: '.' :: (List.replicate (-point).toNat '0' ++ digits))

def plain (x : Float) : String :=
  match Parts.ofFloat x with
  | .nan => "NaN"
  | .infinite negative => if negative then "-inf" else "inf"
  | .zero negative => if negative then "-0" else "0"
  | .finite negative m q => (if negative then "-" else "") ++ positional (shortest .up m q)

end RunControl.Decimal
