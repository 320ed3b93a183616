namespace RunControl.Decimal

def nearest (digits : Nat) (exponent : Int) : Float :=
  let point : Int := (Nat.toDigits 10 digits).length + exponent
  if digits = 0 ∨ point < -330 then 0
  else if 310 < point then 1 / 0
  else if exponent < 0 then Float.ofScientific digits true (-exponent).toNat
  else Float.ofScientific digits false exponent.toNat

def digitsValue (cs : List Char) : Nat :=
  cs.foldl (fun n c => n * 10 + (c.toNat - '0'.toNat)) 0

def nearestOf (whole fraction : List Char) (exponent : Int) : Float :=
  nearest (digitsValue (whole ++ fraction)) (exponent - fraction.length)

end RunControl.Decimal
