import RunControl.Cpu
import RunControl.Listing
import RunControl.Symbols

namespace RunControl

class Engine (ε : Type) where
  load : ε → String → ByteArray → Bool → Except Error ε
  symbols : ε → SymbolTable
  run : ε → Nat → CpuState × ε
  instructionCount : ε → Nat
  instructionPointer : ε → Address
  register : ε → Address → ε
  clear : ε → Address → ε
  unblock : ε → ε
  mappings : ε → List Mapping
  disassemble : ε → Address → Nat → List Instruction × ε

/-- An engine that reports `running` only finitely often, as long as every batch may execute. -/
class FiniteEngine (ε : Type) extends Engine ε where
  batchesLeft : ε → Nat

inductive EngineCall where
  | run (limit : Nat)
  | register (address : Address)
  | clear (address : Address)
  | unblock
  deriving DecidableEq, Repr

structure Recorded (ε : Type) where
  engine : ε
  calls : Array EngineCall
  deriving DecidableEq

namespace Recorded

variable {ε : Type}

def fresh (e : ε) : Recorded ε := ⟨e, #[]⟩

def takeCalls (r : Recorded ε) : Array EngineCall × Recorded ε :=
  (r.calls, { r with calls := #[] })

def note (r : Recorded ε) (c : EngineCall) (e : ε) : Recorded ε :=
  ⟨e, r.calls.push c⟩

instance [Engine ε] : Engine (Recorded ε) where
  load r name image relocate := (Engine.load r.engine name image relocate).map fresh
  symbols r := Engine.symbols r.engine
  run r limit :=
    let (s, e) := Engine.run r.engine limit
    (s, r.note (.run limit) e)
  instructionCount r := Engine.instructionCount r.engine
  instructionPointer r := Engine.instructionPointer r.engine
  register r a := r.note (.register a) (Engine.register r.engine a)
  clear r a := r.note (.clear a) (Engine.clear r.engine a)
  unblock r := r.note .unblock (Engine.unblock r.engine)
  mappings r := Engine.mappings r.engine
  disassemble r a n :=
    let (is, e) := Engine.disassemble r.engine a n
    (is, { r with engine := e })

instance [FiniteEngine ε] : FiniteEngine (Recorded ε) where
  batchesLeft r := FiniteEngine.batchesLeft r.engine

end Recorded

end RunControl
