import RunControl.Engine.Basic

namespace RunControl

structure Outcome where
  state : CpuState
  instructionPointer : Address
  instructionCount : Nat
  deriving DecidableEq, Repr

structure Playlist where
  upcoming : List Outcome
  instructionPointer : Address
  instructionCount : Nat
  symbols : SymbolTable
  registered : KeySet Address
  deriving DecidableEq

namespace Playlist

def run (p : Playlist) : CpuState × Playlist :=
  match p.upcoming with
  | [] => (.exit 0, p)
  | o :: rest =>
      (o.state, { p with
        upcoming := rest
        instructionPointer := o.instructionPointer
        instructionCount := o.instructionCount })

instance : FiniteEngine Playlist where
  load p _ _ _ := .ok p
  symbols := symbols
  run p _ := p.run
  instructionCount := instructionCount
  instructionPointer := instructionPointer
  register p a := { p with registered := p.registered.insert a () }
  clear p a := { p with registered := p.registered.erase a }
  unblock p := p
  mappings _ := []
  disassemble p _ _ := ([], p)
  batchesLeft p := p.upcoming.length + 1

end Playlist

end RunControl
