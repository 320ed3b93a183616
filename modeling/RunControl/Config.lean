import RunControl.Decimal.Shortest
import RunControl.Error
import RunControl.Throughput
import RunControl.Toml.Reader

namespace RunControl

open Toml (Value Entries)

structure UserDirectories where
  config : Option String
  data : Option String
  deriving DecidableEq, Repr

def UserDirectories.ofEnvironment (config data home : Option String) : UserDirectories :=
  let absolute (path : Option String) : Option String :=
    path.filter (·.toList.head? == some '/')
  { config := (absolute config).or (home.map (Files.join · ".config"))
    data := (absolute data).or (home.map (Files.join · ".local/share")) }

structure DebuggerConfig where
  scheduler : SchedulerConfig
  storageDir : Option String
  deriving Repr

namespace DebuggerConfig

def standard : DebuggerConfig := ⟨.standard, none⟩

instance : Inhabited DebuggerConfig := ⟨standard⟩

def applicationDir (dir : String) : String :=
  Files.join dir "emu-debug"

def defaultPath (dirs : UserDirectories) : Option String :=
  dirs.config.map fun d => Files.join (applicationDir d) "config.toml"

def resolvedDir (c : DebuggerConfig) (dirs : UserDirectories) : String :=
  c.storageDir.getD (Files.join (applicationDir (dirs.data.getD ".")) "breakpoints")

def word? : Value → Option UInt64
  | .integer n => if 0 ≤ n then some (UInt64.ofNat n.toNat) else none
  | _ => none

def real? : Value → Option Float
  | .float x => some x
  | .integer n => some (Float.ofInt n)
  | _ => none

def text? : Value → Option String
  | .string s => some s
  | _ => none

def setScheduler (c : SchedulerConfig) : String × Value → Option SchedulerConfig
  | ("initial_step_size", v) => (word? v).map fun n => { c with initialStepSize := n }
  | ("min_sample_steps", v) => (word? v).map fun n => { c with minSampleSteps := n }
  | ("frame_budget_ms", v) => (real? v).map fun x => { c with frameBudget := x }
  | ("smoothing", v) => (real? v).map fun x => { c with smoothing := x }
  | ("max_step_size", v) => (word? v).map fun n => { c with maxStepSize := some n }
  | _ => none

def schedulerKeys : List String :=
  ["initial_step_size", "min_sample_steps", "frame_budget_ms", "smoothing", "max_step_size"]

def setStorage (_ : Option String) : String × Value → Option (Option String)
  | ("dir", v) => (text? v).map some
  | _ => none

def section? (keys : List String) : Value → Option Entries
  | .table _ es => some es
  | .array items => some (keys.zip items)
  | .tables items => some (keys.zip items)
  | _ => none

def setSection (c : DebuggerConfig) : String × Value → Option DebuggerConfig
  | ("scheduler", v) => do
      let es ← section? schedulerKeys v
      return { c with scheduler := ← es.foldlM setScheduler .standard }
  | ("storage", v) => do
      let es ← section? ["dir"] v
      return { c with storageDir := ← es.foldlM setStorage none }
  | _ => none

def ofEntries? (es : Entries) : Option DebuggerConfig :=
  es.foldlM setSection standard

def fault? (c : SchedulerConfig) : Option ConfigFault :=
  if c.initialStepSize = 0 then some .zeroStep
  else if !(0 ≤ c.smoothing && c.smoothing ≤ 1) then
    some (.smoothing (Decimal.plain c.smoothing))
  else
    match c.maxStepSize with
    | some limit =>
        if limit < c.initialStepSize then some (.maximumTooSmall limit c.initialStepSize) else none
    | none => none

def ofText (text : String) : Except Error DebuggerConfig :=
  match (Toml.read? text).bind ofEntries? with
  | none => .error (.config .malformed)
  | some c =>
      match fault? c.scheduler with
      | some fault => .error (.config fault)
      | none => .ok c

def ofFile (t : Files.Tree) (path : String) : Except Error DebuggerConfig :=
  match t.readText path with
  | .error cause => .error (.config (.unreadable path cause))
  | .ok text => ofText text

def load (t : Files.Tree) (dirs : UserDirectories) (explicit : Option String) :
    Except Error DebuggerConfig :=
  match explicit with
  | some path => ofFile t path
  | none =>
      match (defaultPath dirs).filter t.pathExists with
      | some path => ofFile t path
      | none => .ok standard

def isStandard (c : DebuggerConfig) : Bool :=
  let s := c.scheduler
  let d := SchedulerConfig.standard
  s.initialStepSize == d.initialStepSize && s.minSampleSteps == d.minSampleSteps &&
    s.frameBudget == d.frameBudget && s.smoothing == d.smoothing &&
    s.maxStepSize == d.maxStepSize && c.storageDir.isNone

end DebuggerConfig

end RunControl
