import RunControl.CommandLine.Commands
import RunControl.CommandLine.Form

namespace RunControl.CommandLine

def filesOf (directories : UserDirectories) (c : DebuggerConfig) : Command → List String
  | .add _ _ labels a => labels.toList ++ [stored a.storageDir a.session]
  | .remove _ a => [stored a.storageDir a.session]
  | .toggle _ a => [stored a.storageDir a.session]
  | .list a => [stored a.storageDir a.session]
  | .resolve _ labels => labels.toList
  | .run a =>
      a.trace :: a.labels.toList ++ a.script.toList ++
        [stored a.storageDir (Surroundings.programName a)]
where
  stored (explicit : Option String) (key : String) : String :=
    FileStorage.pathIn (explicit.getD (c.resolvedDir directories)) key

def look (path : String) : IO (Option Files.Entry) := do
  try
    return some (.file (← IO.FS.readBinFile path))
  catch
    | .inappropriateType .. => return some .directory
    | _ => return none

def takeIn (t : Files.Tree) (path : String) : IO Files.Tree := do
  let mut t := t
  let names := Files.names path
  for k in [1:names.length + 1] do
    let upTo := names.take k
    match t.follow (Files.start path) upTo with
    | .error _ => return t
    | .ok loc =>
        if (t.entry? loc).isNone then
          match ← look (upTo.foldl Files.below (Files.start path)) with
          | some e => t := t.put loc e
          | none => return t
  return t

def writeBack (before after : Files.Tree) : IO Unit :=
  for (loc, entry) in after.entries.entries do
    if before.entries.get? loc != some entry then
      match entry with
      | .directory => IO.FS.createDirAll loc
      | .file bytes => IO.FS.writeBinFile loc bytes

def timeBatch (c : Scheduler Scripted FileStorage) : IO Float := do
  let (_, armed) := Arming.arm c.store c.engine
  let engine ← IO.mkRef armed
  let started ← IO.monoNanosNow
  engine.set (Engine.run armed c.throughput.stepSize.toNat).2
  let ended ← IO.monoNanosNow
  return (ended - started).toFloat / 1000000

def timeTicks (times : Array Float) :
    Nat → Scheduler Scripted FileStorage → IO (Array Float × Scheduler Scripted FileStorage)
  | 0, c => return (times, c)
  | limit + 1, c =>
      match c.takeTick? with
      | none => return (times, c)
      | some c => do
          if c.running && !c.stopRequested then
            let elapsed ← timeBatch c
            timeTicks (times.push elapsed) limit { c with stopwatch := fun _ => elapsed }.tick
          else timeTicks times limit c.tick

-- A run is rehearsed with the clock at hand, and what was read off it is the stopwatch of the run itself.
def timeRun (s : Surroundings) (c : DebuggerConfig) (a : RunArguments) : IO Stopwatch := do
  match s.prepare c a with
  | .error _ => return .still
  | .ok (session, requests) =>
      let mut session := session
      let mut times := #[]
      for request in requests do
        let asked := (session.handle request).2
        let (read, scheduler) ← timeTicks times asked.scheduler.ticksLeft asked.scheduler
        session := { asked with scheduler }
        times := read
      let readings := times
      return fun n => readings.getD n 0

def stopwatchFor (s : Surroundings) (c : DebuggerConfig) : Command → IO Stopwatch
  | .run a => timeRun s c a
  | _ => return .still

def perform (i : Invocation) : IO UInt32 := do
  let directories := UserDirectories.ofEnvironment (← IO.getEnv "XDG_CONFIG_HOME")
    (← IO.getEnv "XDG_DATA_HOME") (← IO.getEnv "HOME")
  let color := (← (← IO.getStdout).isTty) && (← IO.getEnv "NO_COLOR").isNone
  let configured ← (i.config.or (DebuggerConfig.defaultPath directories)).toList.foldlM takeIn .empty
  let c := (DebuggerConfig.load configured directories i.config).toOption.getD .standard
  let files ← (filesOf directories c i.command).foldlM takeIn configured
  let s : Surroundings := { files, directories, color, stopwatch := .still }
  let o := { s with stopwatch := ← stopwatchFor s c i.command }.execute i
  writeBack files o.files
  IO.print o.output
  IO.eprint o.notes
  match o.result with
  | .ok () => return 0
  | .error e =>
      IO.eprintln ("Error: " ++ e.message)
      return 1

def explain : UsageFault → IO UInt32
  | .helpAsked p => do
      IO.println (UsageFault.message (.helpAsked p))
      return 0
  | .versionAsked => do
      IO.println UsageFault.versionAsked.message
      return 0
  | fault => do
      IO.eprintln ("error: " ++ fault.message)
      return 2

end RunControl.CommandLine

open RunControl.CommandLine in
def main (words : List String) : IO UInt32 := do
  match Invocation.ofWords (← IO.getEnv "EMU_DEBUG_CONFIG") words with
  | .ok i => perform i
  | .error fault => explain fault
