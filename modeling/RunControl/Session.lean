import RunControl.Labels
import RunControl.Scheduler

namespace RunControl

open Json

structure DebugState where
  running : Bool
  instructionPointer : Address
  location : String
  instructionCount : UInt64
  stepSize : UInt64
  instrPerMs : Float
  cpuState : Option CpuState
  breakpoints : List Breakpoint
  deriving Repr

namespace DebugState

def toNode (s : DebugState) : Node :=
  .object ([("running", .bool s.running),
    ("instruction_pointer", .ofNat s.instructionPointer.toNat),
    ("location", .ofString s.location),
    ("instruction_count", .ofNat s.instructionCount.toNat),
    ("step_size", .ofNat s.stepSize.toNat),
    ("instr_per_ms", .ofFloat s.instrPerMs)] ++
    (s.cpuState.toList.map fun c => ("cpu_state", c.toNode)) ++
    [("breakpoints", .list (s.breakpoints.map Breakpoint.toNode))])

def decode (outer : Nat) : Decoder DebugState :=
  (DebugState.mk <$> .required "running" .boolean <*>
    .required "instruction_pointer" .word32 <*> .required "location" .string <*>
    .required "instruction_count" (.word64 "u64") <*> .required "step_size" (.word64 "usize") <*>
    .required "instr_per_ms" .real <*>
    .optional "cpu_state" (.nullable (CpuState.decode (outer + 1))) none <*>
    .required "breakpoints" (.list Breakpoint.decode) : Record DebugState).decode
    "struct DebugState" false

end DebugState

structure Session (ε σ : Type) where
  scheduler : Scheduler ε σ
  labels : Labels

namespace Session

variable {ε σ : Type} [Engine ε] [Storage σ]

def create (e : ε) (key : String) (given : List (Address × String)) (storage : σ)
    (ticks : TickRequests) (config : SchedulerConfig) (w : Stopwatch) : Session ε σ where
  scheduler := .idle e (.load key storage) ticks config w
  labels := .merge given (Engine.symbols e)

def edit {α : Type} (s : Session ε σ) (f : Store σ → α × Store σ) : α × Session ε σ :=
  let (r, store) := f s.scheduler.store
  (r, { s with scheduler := { s.scheduler with store } })

def add (s : Session ε σ) (b : Breakpoint) : Except Error Unit × Session ε σ :=
  s.edit (·.add b)

def remove (s : Session ε σ) (a : Address) : Except Error Bool × Session ε σ :=
  s.edit (·.remove a)

def toggle (s : Session ε σ) (a : Address) : Except Error Breakpoint × Session ε σ :=
  s.edit (·.toggle a)

def addByName (s : Session ε σ) (name : String) : Except Error (Option Address) × Session ε σ :=
  match s.labels.resolve? name with
  | none => (.ok none, s)
  | some a =>
      let (r, s) := s.add (.standing a)
      (r.map fun _ => some a, s)

def breakpoints (s : Session ε σ) : List Breakpoint :=
  s.scheduler.store.set.toList

def start (s : Session ε σ) : Session ε σ :=
  { s with scheduler := s.scheduler.start }

def stop (s : Session ε σ) : Session ε σ :=
  { s with scheduler := s.scheduler.stop }

def requestStop (s : Session ε σ) : Session ε σ :=
  { s with scheduler := s.scheduler.requestStop }

def tick (s : Session ε σ) : Session ε σ :=
  { s with scheduler := s.scheduler.tick }

def step (s : Session ε σ) : CpuState × Session ε σ :=
  let (state, scheduler) := s.scheduler.singleStep
  (state, { s with scheduler })

def runTo (s : Session ε σ) (a : Address) : Except Error Unit × Session ε σ :=
  if s.scheduler.store.set.contains a then (.ok (), s.start)
  else
    match s.add (.single a) with
    | (.ok (), s) => (.ok (), s.start)
    | (.error e, s) => (.error e, s)

def driveFor (limit : Nat) (s : Session ε σ) : Nat × Session ε σ :=
  let (n, scheduler) := s.scheduler.driveFor limit
  (n, { s with scheduler })

def mappings (s : Session ε σ) : List Mapping :=
  Engine.mappings s.scheduler.engine

def disassemble (s : Session ε σ) (a : Address) (n : Nat) : List Instruction × Session ε σ :=
  let (is, e) := Engine.disassemble s.scheduler.engine a n
  (is, { s with scheduler := { s.scheduler with engine := e } })

def state (s : Session ε σ) : DebugState :=
  let c := s.scheduler
  let a := Engine.instructionPointer c.engine
  { running := c.running
    instructionPointer := a
    location := s.labels.describe a
    instructionCount := UInt64.ofNat (Engine.instructionCount c.engine)
    stepSize := c.throughput.stepSize
    instrPerMs := c.throughput.instrPerMs
    cpuState := c.lastState
    breakpoints := s.breakpoints }

end Session

def Session.drive {ε σ : Type} [FiniteEngine ε] [Storage σ] (s : Session ε σ) :
    Nat × Session ε σ :=
  s.driveFor s.scheduler.ticksLeft

end RunControl
