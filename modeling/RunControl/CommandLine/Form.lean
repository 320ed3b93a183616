import RunControl.CommandLine.Invocation
import RunControl.CommandLine.Reading

namespace RunControl.CommandLine

structure Form where
  verbose : Nat
  quiet : Bool
  logFormat : Option LogFormat
  config : Option String
  session : Option String
  storageDir : Option String
  labels : Option String
  script : Option String
  trace : Option String
  target : Option String
  address : Option Address
  oneShot : Bool
  relocate : Bool
  deriving DecidableEq, Repr

namespace Form

def blank : Form :=
  ⟨0, false, none, none, none, none, none, none, none, none, none, false, false⟩

def turnOn (s : Switch) (old : Bool) : Except UsageFault Bool :=
  if old then .error (.repeated (.switch s)) else .ok true

def fill {α : Type} (f : Field) (old : Option α) (new : Except UsageFault α) :
    Except UsageFault (Option α) :=
  match old with
  | some _ => .error (.repeated (.option f))
  | none => new.map some

def readPath (f : Field) (text : String) : Except UsageFault String :=
  if text.isEmpty then .error (.noValue f) else .ok text

def readLogFormat (text : String) : Except UsageFault LogFormat :=
  match LogFormat.ofName? text with
  | some format => .ok format
  | none => .error (.badChoice .logFormat text)

def readAddress (text : String) : Except UsageFault Address :=
  (Address.read text).mapError (.badAddress text)

def maxCount : Nat := 255

def putSwitch (p : Place) (m : Form) : Switch → Except UsageFault Form
  | .help => .error (.helpAsked p)
  | .version => .error .versionAsked
  | .verbose => .ok { m with verbose := min maxCount (m.verbose + 1) }
  | .quiet => (turnOn .quiet m.quiet).map fun quiet => { m with quiet }
  | .oneShot => (turnOn .oneShot m.oneShot).map fun oneShot => { m with oneShot }
  | .relocate => (turnOn .relocate m.relocate).map fun relocate => { m with relocate }

def putText (m : Form) (text : String) : Field → Except UsageFault Form
  | .logFormat =>
      (fill .logFormat m.logFormat (readLogFormat text)).map fun logFormat => { m with logFormat }
  | .config => (fill .config m.config (readPath .config text)).map fun config => { m with config }
  | .session => (fill .session m.session (.ok text)).map fun session => { m with session }
  | .storageDir =>
      (fill .storageDir m.storageDir (readPath .storageDir text)).map fun storageDir =>
        { m with storageDir }
  | .labels => (fill .labels m.labels (readPath .labels text)).map fun labels => { m with labels }
  | .script => (fill .script m.script (readPath .script text)).map fun script => { m with script }
  | .trace => (fill .trace m.trace (readPath .trace text)).map fun trace => { m with trace }
  | .target => (fill .target m.target (.ok text)).map fun target => { m with target }
  | .address => (fill .address m.address (readAddress text)).map fun address => { m with address }

def put (p : Place) (m : Form) : Given → Except UsageFault Form
  | .switch s => m.putSwitch p s
  | .value f none => .error (.noValue f)
  | .value f (some text) => m.putText text f

def required {α : Type} (f : Field) : Option α → Except UsageFault α
  | some a => .ok a
  | none => .error (.missing f)

def store (m : Form) : Except UsageFault StoreArguments :=
  (required .session m.session).map fun session => ⟨session, m.storageDir⟩

def command (m : Form) : Verb → Except UsageFault Command
  | .add => do return .add (← required .target m.target) m.oneShot m.labels (← m.store)
  | .remove => do return .remove (← required .address m.address) (← m.store)
  | .toggle => do return .toggle (← required .address m.address) (← m.store)
  | .list => do return .list (← m.store)
  | .resolve => do return .resolve (← required .target m.target) m.labels
  | .run => do
      let trace ← required .trace m.trace
      return .run ⟨trace, m.session, m.labels, m.script, m.storageDir, m.relocate⟩

def completed (m : Form) (environment : Option String) : Except UsageFault Form :=
  match m.config, environment with
  | none, some path => m.putText path .config
  | _, _ => .ok m

def checkConflict (m : Form) : Except UsageFault Unit :=
  if m.quiet && 0 < m.verbose then .error (.conflict .quiet .verbose) else .ok ()

def saysNothing (m : Form) : Bool :=
  m.verbose == 0 && !m.quiet && m.logFormat.isNone && m.config.isNone

end Form

structure Said (α : Type) where
  verbose : Nat
  quiet : Bool
  logFormat : Option LogFormat
  config : Option String
  what : α
  deriving DecidableEq, Repr

namespace Said

variable {α : Type}

def within (s : Said α) (m : Form) : Said α where
  verbose := if s.verbose = 0 then m.verbose else s.verbose
  quiet := s.quiet || m.quiet
  logFormat := s.logFormat.or m.logFormat
  config := s.config.or m.config
  what := s.what

end Said

namespace Place

def close (p : Place) (m : Form) : Except UsageFault Command :=
  match p with
  | .command v => do
      m.checkConflict
      m.command v
  | _ => .error (if m.saysNothing then .nothingSaid p else .commandMissing p)

def read (environment : Option String) (p : Place) (words : List String) :
    Except UsageFault (Said Command) := do
  let r := p.scan none p.operands words
  let m ← r.settled.foldlM (Form.put p) .blank
  match _h : r.ending with
  | .refused e => .error e
  | .done =>
      let m ← r.waiting.toList.foldlM (Form.put p) m
      let command ← p.close (← m.completed environment)
      return Said.within ⟨0, false, none, none, command⟩ m
  | .command q rest =>
      let inner ← q.read environment rest
      let m ← r.waiting.toList.foldlM (Form.put p) m
      (← m.completed environment).checkConflict
      return inner.within m
termination_by words.length
decreasing_by exact length_lt_of_scan ‹_›

end Place

def Invocation.ofWords (environment : Option String) (words : List String) :
    Except UsageFault Invocation := do
  let s ← Place.program.read environment words
  return {
    verbose := s.verbose
    quiet := s.quiet
    logFormat := s.logFormat.getD .text
    config := s.config.or environment
    command := s.what }

end RunControl.CommandLine
