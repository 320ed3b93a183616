import RunControl.Proofs.Conversation
import RunControl.Proofs.RunInputs

namespace RunControl.CommandLine

inductive Rejects (files : Files.Tree) (a : RunArguments) : Error → Prop
  | trace {e : Error} (h : TraceFault files a.trace (Surroundings.programName a) e) : Rejects files a e
  | script {engine : Scripted} {path : String} {e : Error}
      (loads : Loads files a.trace (Surroundings.programName a) engine) (given : a.script = some path)
      (h : Script.Fault files path e) : Rejects files a e
  | labels {engine : Scripted} {requests : List DebugRequest} {path : String} {e : Error}
      (loads : Loads files a.trace (Surroundings.programName a) engine)
      (asks : Script.Asks files a.script requests) (given : a.labels = some path)
      (h : LabelsFault files path e) : Rejects files a e

namespace Surroundings

/-- What a run leaves behind. Of one that is rejected, no session was ever opened on the engine, so the host was told
of nothing. -/
inductive Ends (s : Surroundings) (c : DebuggerConfig) (a : RunArguments) (o : Outcome) : Prop
  | rejected {e : Error} (h : Rejects s.files a e) (result : o.result = .error e)
      (silent : o.output = "") (untold : o.notes = "") (kept : o.files = s.files)
      (unopened : s.prepare c a = .error e)
  | answered {engine : Scripted} {requests : List DebugRequest} {labels : SymbolTable}
      {responses : List DebugResponse} {final : Session Scripted FileStorage}
      (loads : Loads s.files a.trace (programName a) engine)
      (asks : Script.Asks s.files a.script requests)
      (labelled : readLabels s.files a.labels = .ok labels)
      (converses : (Session.create engine (programName a) labels.entries (s.storageAt c a.storageDir)
        .channel c.scheduler s.stopwatch).Converses requests responses final)
      (result : o.result = .ok ())
      (count : responses.length = Script.requestCount s.files a.script)
      (lines : o.output.toList.splitOn '\n' =
        (responses ++ [DebugResponse.state final.state]).map (fun r => r.toNode.render) ++ [[]])
      (tells : ∀ r ∈ responses ++ [DebugResponse.state final.state], r.Tells r.toNode.render)
      (stored : o.files = final.scheduler.store.storage.tree)

end Surroundings

end RunControl.CommandLine
