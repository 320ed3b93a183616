import RunControl.Address
import RunControl.Table

namespace RunControl

structure Labels where
  names : Table Address String
  deriving DecidableEq

namespace Labels

def merge (given : List (Address × String)) (symbols : Table Address String) : Labels :=
  ⟨(Table.ofList given).insertAll symbols.entries⟩

def label? (l : Labels) (a : Address) : Option String :=
  l.names.get? a

def resolve? (l : Labels) (name : String) : Option Address :=
  match l.names.entries.find? (fun e => e.2 == name) with
  | some e => some e.1
  | none => Address.readBare? name

def nearest? (l : Labels) (a : Address) : Option (Address × String) :=
  (l.names.entries.filter fun e => e.1 ≤ a).getLast?

def describe (l : Labels) (a : Address) : String :=
  match l.nearest? a with
  | some (base, name) => if base = a then name else name ++ "+" ++ (a - base).offset
  | none => a.bare

end Labels

end RunControl
