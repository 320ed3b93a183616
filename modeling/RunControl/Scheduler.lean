import RunControl.Arming
import RunControl.Throughput
import RunControl.TickRequests

namespace RunControl

/-- Measured times of the batches to come, in milliseconds. -/
abbrev Stopwatch := Nat → Float

namespace Stopwatch

def still : Stopwatch := fun _ => 0

def later (w : Stopwatch) : Stopwatch := fun n => w (n + 1)

end Stopwatch

structure Scheduler (ε σ : Type) where
  engine : ε
  store : Store σ
  arming : Arming
  throughput : Throughput
  host : HostLog
  ticks : TickRequests
  stopwatch : Stopwatch
  stopRequested : Bool
  running : Bool
  tickPending : Bool
  lastState : Option CpuState
  lastHit : Hit

namespace Scheduler

variable {ε σ : Type} [Engine ε] [Storage σ]

def idle (e : ε) (s : Store σ) (ticks : TickRequests) (config : SchedulerConfig) (w : Stopwatch) :
    Scheduler ε σ where
  engine := e
  store := s
  arming := .idle
  throughput := .ofConfig config
  host := #[]
  ticks := ticks
  stopwatch := w
  stopRequested := false
  running := false
  tickPending := false
  lastState := none
  lastHit := .none

def singleStep (c : Scheduler ε σ) : CpuState × Scheduler ε σ :=
  let (state, e) := Engine.run (Engine.unblock c.engine) 1
  (state, { c with engine := e, lastState := some state })

def runBatch (c : Scheduler ε σ) : CpuState × Scheduler ε σ :=
  let before := Engine.instructionCount c.engine
  let (state, e) := Engine.run c.engine c.throughput.stepSize.toNat
  let steps := UInt64.ofNat (Engine.instructionCount e - before)
  let (_, throughput) := c.throughput.record steps (c.stopwatch 0)
  (state, { c with engine := e, throughput, stopwatch := c.stopwatch.later })

/-- Executes a batch between breakpoints, and says whether the run goes on. Where a hit cannot be
settled, the state that the batch reported is not kept. -/
def batchStep (c : Scheduler ε σ) : Except Error Bool × Scheduler ε σ :=
  let (arming, e) := Arming.arm c.store c.engine
  let (state, c) := { c with arming, engine := e }.runBatch
  let (arming, e) := c.arming.disarm c.engine
  let (r, store, host) := Arming.checkHit c.store e c.host
  let c := { c with arming, engine := e, store, host }
  match r with
  | .error err => (.error err, c)
  | .ok hit =>
      (.ok (!hit.stops && state.isRunning), { c with lastHit := hit, lastState := some state })

def schedule (c : Scheduler ε σ) : Scheduler ε σ :=
  if c.tickPending then c else { c with tickPending := true, ticks := c.ticks.request }

def stepOff (c : Scheduler ε σ) : Scheduler ε σ :=
  if c.store.set.isArmedAt (Engine.instructionPointer c.engine) then c.singleStep.2 else c

def start (c : Scheduler ε σ) : Scheduler ε σ :=
  if c.running then c
  else
    let c := { c with stopRequested := false, engine := Engine.unblock c.engine }.stepOff
    { c with lastHit := .none, running := true }.schedule

def stop (c : Scheduler ε σ) : Scheduler ε σ :=
  { c with running := false }

def requestStop (c : Scheduler ε σ) : Scheduler ε σ :=
  { c with stopRequested := true }

def tell (c : Scheduler ε σ) (e : HostEvent) : Scheduler ε σ :=
  { c with host := c.host.push e }

def reportHalt (c : Scheduler ε σ) : Scheduler ε σ :=
  match c.lastState with
  | some (.exit code) => c.tell (.exit code)
  | some (.error message) => c.tell (.error message)
  | _ => c

def tick (c : Scheduler ε σ) : Scheduler ε σ :=
  let c := { c with tickPending := false }
  if !c.running then c
  else if c.stopRequested then c.stop
  else
    match c.batchStep with
    | (.ok true, c) => c.schedule
    | (.ok false, c) => c.reportHalt.stop
    | (.error e, c) => (c.tell (.error e.message)).stop

def takeTick? (c : Scheduler ε σ) : Option (Scheduler ε σ) :=
  c.ticks.take?.map fun ticks => { c with ticks }

def driveFrom (count : Nat) : Nat → Scheduler ε σ → Nat × Scheduler ε σ
  | 0, c => (count, c)
  | limit + 1, c =>
      match c.takeTick? with
      | none => (count, c)
      | some c => driveFrom (count + 1) limit c.tick

def driveFor (limit : Nat) (c : Scheduler ε σ) : Nat × Scheduler ε σ :=
  driveFrom 0 limit c

end Scheduler

def Scheduler.ticksLeft {ε σ : Type} [FiniteEngine ε] (c : Scheduler ε σ) : Nat :=
  c.ticks.waiting + FiniteEngine.batchesLeft c.engine

def Scheduler.drive {ε σ : Type} [FiniteEngine ε] [Storage σ] (c : Scheduler ε σ) :
    Nat × Scheduler ε σ :=
  c.driveFor c.ticksLeft

end RunControl
