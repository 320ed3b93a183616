import RunControl.CommandLine.Console
import RunControl.CommandLine.Invocation
import RunControl.Config
import RunControl.Engine.Scripted
import RunControl.Request
import RunControl.Storage.Files
import RunControl.Text.Blank

namespace RunControl.CommandLine

structure Surroundings where
  files : Files.Tree
  directories : UserDirectories
  color : Bool
  stopwatch : Stopwatch

structure Outcome where
  result : Except Error Unit
  lines : List String
  notes : String
  files : Files.Tree

namespace Outcome

def failed (files : Files.Tree) (e : Error) : Outcome :=
  ⟨.error e, [], "", files⟩

def printed (files : Files.Tree) (line : String) : Outcome :=
  ⟨.ok (), [line], "", files⟩

def output (o : Outcome) : String :=
  String.join (o.lines.map (· ++ "\n"))

end Outcome

def readText (files : Files.Tree) (path : String) : Except Error String :=
  (files.readText path).mapError (.unreadable path)

def readLabels (files : Files.Tree) : Option String → Except Error SymbolTable
  | none => .ok .empty
  | some path => (readText files path).bind SymbolTable.decode

def resolveTarget (labels : Labels) (target : String) : Except Error Address :=
  match labels.resolve? target with
  | some a => .ok a
  | none => .error (.unresolved target)

namespace Script

def isIdle (line : List Char) : Bool :=
  match Text.trim line with
  | [] => true
  | c :: _ => c == '#'

def requestLines (text : String) : List (Nat × List Char) :=
  ((Text.lines text.toList).zipIdx 1).filterMap fun (line, n) =>
    if isIdle line then none else some (n, line)

def readLine (n : Nat) (line : List Char) : Except Error DebugRequest :=
  (Json.decodeText DebugRequest.decode (String.ofList line)).mapError
    (.payload s!"script line {n}")

def ofText (text : String) : Except Error (List DebugRequest) :=
  (requestLines text).mapM fun (n, line) => readLine n line

def read (files : Files.Tree) : Option String → Except Error (List DebugRequest)
  | none => .ok [.start]
  | some path => (readText files path).bind ofText

end Script

namespace Surroundings

def storageAt (s : Surroundings) (c : DebuggerConfig) (explicit : Option String) : FileStorage :=
  ⟨explicit.getD (c.resolvedDir s.directories), s.files⟩

def storeOf (s : Surroundings) (c : DebuggerConfig) (a : StoreArguments) : Store FileStorage :=
  .load a.session (s.storageAt c a.storageDir)

def edit {α : Type} (r : Except Error α × Store FileStorage) (line : α → String) : Outcome :=
  let files := r.2.storage.tree
  match r.1 with
  | .ok a => .printed files (line a)
  | .error e => .failed files e

def breakpointLine (s : Surroundings) (b : Breakpoint) : String :=
  let mark := if b.disabled then Style.dimmed.paint s.color "○" else Style.red.paint s.color "●"
  "  " ++ mark ++ " " ++ b.describe

def listing (s : Surroundings) (session : String) : List Breakpoint → List String
  | [] => ["No breakpoints set for " ++ session]
  | bs => Style.bold.paint s.color s!"Breakpoints for {session}:" :: bs.map s.breakpointLine

def add (s : Surroundings) (c : DebuggerConfig) (target : String) (oneShot : Bool)
    (labels : Option String) (a : StoreArguments) : Outcome :=
  match readLabels s.files labels with
  | .error e => .failed s.files e
  | .ok given =>
      let labels := Labels.merge given.entries .empty
      match resolveTarget labels target with
      | .error e => .failed s.files e
      | .ok address =>
          edit ((s.storeOf c a).add { address, disabled := false, oneShot }) fun _ =>
            "Breakpoint set at " ++ Style.cyan.paint s.color (labels.describe address)

def remove (s : Surroundings) (c : DebuggerConfig) (address : Address) (a : StoreArguments) :
    Outcome :=
  edit ((s.storeOf c a).remove address) fun found =>
    (if found then "Breakpoint removed at " else "No breakpoint at ") ++ address.marked

def toggle (s : Surroundings) (c : DebuggerConfig) (address : Address) (a : StoreArguments) :
    Outcome :=
  edit ((s.storeOf c a).toggle address) fun b =>
    "Breakpoint " ++ address.marked ++ if b.disabled then " disabled" else " enabled"

def list (s : Surroundings) (c : DebuggerConfig) (a : StoreArguments) : Outcome :=
  ⟨.ok (), s.listing a.session (s.storeOf c a).set.toList, "", s.files⟩

def resolve (s : Surroundings) (name : String) (labels : Option String) : Outcome :=
  let r := do
    let given ← readLabels s.files labels
    resolveTarget (.merge given.entries .empty) name
  match r with
  | .ok address => .printed s.files address.marked
  | .error e => .failed s.files e

def programName (a : RunArguments) : String :=
  a.session.getD ((Files.fileStem? a.trace).getD "program")

def prepare (s : Surroundings) (c : DebuggerConfig) (a : RunArguments) :
    Except Error (Session Scripted FileStorage × List DebugRequest) := do
  let image ← (s.files.readBytes a.trace).mapError (.unreadable a.trace)
  let name := programName a
  let engine ← Engine.load Scripted.idle name image a.relocate
  let requests ← Script.read s.files a.script
  let labels ← readLabels s.files a.labels
  return (.create engine name labels.entries (s.storageAt c a.storageDir) .channel c.scheduler
    s.stopwatch, requests)

def converse (session : Session Scripted FileStorage) :
    List DebugRequest → List DebugResponse × Session Scripted FileStorage
  | [] => ([], session)
  | request :: rest =>
      let (response, session) := session.handle request
      let (responses, session) := converse session.drive.2 rest
      (response :: responses, session)

def run (s : Surroundings) (c : DebuggerConfig) (a : RunArguments) : Outcome :=
  match s.prepare c a with
  | .error e => .failed s.files e
  | .ok (session, requests) =>
      let (responses, session) := converse session requests
      { result := .ok ()
        lines := (responses ++ [DebugResponse.state session.state]).map (·.toNode.text)
        notes := Console.notes s.color session.scheduler.host
        files := session.scheduler.store.storage.tree }

def perform (s : Surroundings) (c : DebuggerConfig) : Command → Outcome
  | .add target oneShot labels store => s.add c target oneShot labels store
  | .remove address store => s.remove c address store
  | .toggle address store => s.toggle c address store
  | .list store => s.list c store
  | .resolve name labels => s.resolve name labels
  | .run a => s.run c a

def execute (s : Surroundings) (i : Invocation) : Outcome :=
  match DebuggerConfig.load s.files s.directories i.config with
  | .error e => .failed s.files e
  | .ok c => s.perform c i.command

end Surroundings

end RunControl.CommandLine
