namespace RunControl

structure SchedulerConfig where
  initialStepSize : UInt64
  minSampleSteps : UInt64
  frameBudget : Float
  smoothing : Float
  maxStepSize : Option UInt64
  deriving Repr

namespace SchedulerConfig

def standard : SchedulerConfig where
  initialStepSize := 5000
  minSampleSteps := 1000
  frameBudget := 8
  smoothing := 0.5
  maxStepSize := none

instance : Inhabited SchedulerConfig := ⟨standard⟩

end SchedulerConfig

structure Throughput where
  config : SchedulerConfig
  stepSize : UInt64
  instrPerMs : Float
  deriving Repr

namespace Throughput

def ofConfig (c : SchedulerConfig) : Throughput where
  config := c
  stepSize := max c.initialStepSize 1
  instrPerMs := 0

def double (n : UInt64) : UInt64 :=
  if n < 0x8000000000000000 then 2 * n else 0xffffffffffffffff

def measurable (elapsed : Float) : Float :=
  if elapsed > 0.001 then elapsed else 0.001

def smoothed (t : Throughput) (steps : UInt64) (elapsed : Float) : Float :=
  let sample := steps.toFloat / measurable elapsed
  t.config.smoothing * sample + (1 - t.config.smoothing) * t.instrPerMs

def grown (t : Throughput) : UInt64 :=
  match t.config.maxStepSize with
  | some limit => min (double t.stepSize) limit
  | none => double t.stepSize

def record (t : Throughput) (steps : UInt64) (elapsed : Float) : Bool × Throughput :=
  if steps ≤ t.config.minSampleSteps then (false, t)
  else
    let t' := { t with instrPerMs := t.smoothed steps elapsed }
    if elapsed ≥ t.config.frameBudget then (false, t')
    else if t.grown = t.stepSize then (false, t')
    else (true, { t' with stepSize := t.grown })

end Throughput

end RunControl
