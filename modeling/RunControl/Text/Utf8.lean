namespace RunControl.Text.Utf8

inductive Fault where
  | invalid (length index : Nat)
  | incomplete (index : Nat)
  deriving DecidableEq, Repr

def Fault.message : Fault → String
  | .invalid n i => s!"invalid utf-8 sequence of {n} bytes from index {i}"
  | .incomplete i => s!"incomplete utf-8 byte sequence from index {i}"

def continuation (lead : UInt8) : Option (List (UInt8 × UInt8)) :=
  if lead < 0x80 then some []
  else if lead < 0xc2 then none
  else if lead < 0xe0 then some [(0x80, 0xbf)]
  else if lead = 0xe0 then some [(0xa0, 0xbf), (0x80, 0xbf)]
  else if lead = 0xed then some [(0x80, 0x9f), (0x80, 0xbf)]
  else if lead < 0xf0 then some [(0x80, 0xbf), (0x80, 0xbf)]
  else if lead = 0xf0 then some [(0x90, 0xbf), (0x80, 0xbf), (0x80, 0xbf)]
  else if lead < 0xf4 then some [(0x80, 0xbf), (0x80, 0xbf), (0x80, 0xbf)]
  else if lead = 0xf4 then some [(0x80, 0x8f), (0x80, 0xbf), (0x80, 0xbf)]
  else none

def faultFrom (pending : List (UInt8 × UInt8)) (start index : Nat) : List UInt8 → Option Fault
  | [] => if pending.isEmpty then none else some (.incomplete start)
  | b :: bs =>
      match pending with
      | (lo, hi) :: more =>
          if lo ≤ b ∧ b ≤ hi then faultFrom more start (index + 1) bs
          else some (.invalid (index - start) start)
      | [] =>
          match continuation b with
          | some more => faultFrom more index (index + 1) bs
          | none => some (.invalid 1 index)

def fault? (bytes : List UInt8) : Option Fault :=
  faultFrom [] 0 0 bytes

def decode? (bytes : ByteArray) : Option String :=
  String.fromUTF8? bytes

theorem decode?_toUTF8 (s : String) : decode? s.toUTF8 = some s := by
  simp only [decode?, String.fromUTF8?, String.toUTF8_eq_toByteArray, dif_pos s.isValidUTF8]
  rfl

end RunControl.Text.Utf8
