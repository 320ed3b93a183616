import RunControl.Session

namespace RunControl

open Json

inductive DebugRequest where
  | start
  | stop
  | step
  | runTo (address : Address)
  | addBreakpoint (address : Address) (oneShot : Bool)
  | addBreakByName (name : String)
  | removeBreakpoint (address : Address)
  | toggleBreakpoint (address : Address)
  | listBreakpoints
  | getState
  deriving DecidableEq, Repr

namespace DebugRequest

def tagged (name : String) (members : List (String × Node)) : Node :=
  .object [(name, .object members)]

def toNode : DebugRequest → Node
  | .start => .ofString "Start"
  | .stop => .ofString "Stop"
  | .step => .ofString "Step"
  | .runTo a => tagged "RunTo" [("address", .ofNat a.toNat)]
  | .addBreakpoint a oneShot =>
      tagged "AddBreakpoint" [("address", .ofNat a.toNat), ("one_shot", .bool oneShot)]
  | .addBreakByName name => tagged "AddBreakByName" [("name", .ofString name)]
  | .removeBreakpoint a => tagged "RemoveBreakpoint" [("address", .ofNat a.toNat)]
  | .toggleBreakpoint a => tagged "ToggleBreakpoint" [("address", .ofNat a.toNat)]
  | .listBreakpoints => .ofString "ListBreakpoints"
  | .getState => .ofString "GetState"

def withFields (name : String) (r : Record DebugRequest) : Variant DebugRequest :=
  ⟨name, .record (r.decode ("struct variant DebugRequest::" ++ name) false)⟩

def variants : List (Variant DebugRequest) :=
  [⟨"Start", .unit .start⟩, ⟨"Stop", .unit .stop⟩, ⟨"Step", .unit .step⟩,
    withFields "RunTo" (.runTo <$> .required "address" .word32),
    withFields "AddBreakpoint"
      (.addBreakpoint <$> .required "address" .word32 <*> .optional "one_shot" .boolean false),
    withFields "AddBreakByName" (.addBreakByName <$> .required "name" .string),
    withFields "RemoveBreakpoint" (.removeBreakpoint <$> .required "address" .word32),
    withFields "ToggleBreakpoint" (.toggleBreakpoint <$> .required "address" .word32),
    ⟨"ListBreakpoints", .unit .listBreakpoints⟩, ⟨"GetState", .unit .getState⟩]

def decode : Decoder DebugRequest :=
  Variant.decode variants

end DebugRequest

inductive DebugResponse where
  | ok
  | error (message : String)
  | breakpoints (list : List Breakpoint)
  | state (s : DebugState)
  | resolved (address : Option Address)
  deriving Repr

namespace DebugResponse

def toNode : DebugResponse → Node
  | .ok => .ofString "Ok"
  | .error message => .object [("Error", .ofString message)]
  | .breakpoints list => .object [("Breakpoints", .list (list.map Breakpoint.toNode))]
  | .state s => .object [("State", s.toNode)]
  | .resolved none => .object [("Resolved", .null)]
  | .resolved (some a) => .object [("Resolved", .ofNat a.toNat)]

def variants : List (Variant DebugResponse) :=
  [⟨"Ok", .unit .ok⟩,
    ⟨"Error", .value fun n => (Decoder.string n).map .error⟩,
    ⟨"Breakpoints", .value fun n => (Decoder.list Breakpoint.decode n).map .breakpoints⟩,
    ⟨"State", .value fun n => (DebugState.decode 1 n).map .state⟩,
    ⟨"Resolved", .value fun n => (Decoder.nullable .word32 n).map .resolved⟩]

def decode : Decoder DebugResponse :=
  Variant.decode variants

def ofResult {α : Type} (f : α → DebugResponse) : Except Error α → DebugResponse
  | .ok a => f a
  | .error e => .error e.message

end DebugResponse

namespace Session

variable {ε σ : Type} [Engine ε] [Storage σ]

def handle (s : Session ε σ) : DebugRequest → DebugResponse × Session ε σ
  | .start => (.ok, s.start)
  | .stop => (.ok, s.stop)
  | .step =>
      let (_, s) := s.step
      (.state s.state, s)
  | .runTo a =>
      let (r, s) := s.runTo a
      (.ofResult (fun _ => .ok) r, s)
  | .addBreakpoint a oneShot =>
      let (r, s) := s.add { address := a, disabled := false, oneShot }
      (.ofResult (fun _ => .ok) r, s)
  | .addBreakByName name =>
      let (r, s) := s.addByName name
      (.ofResult .resolved r, s)
  | .removeBreakpoint a =>
      let (r, s) := s.remove a
      (.ofResult (fun _ => .ok) r, s)
  | .toggleBreakpoint a =>
      let (r, s) := s.toggle a
      (.ofResult (fun _ => .ok) r, s)
  | .listBreakpoints => (.breakpoints s.breakpoints, s)
  | .getState => (.state s.state, s)

end Session

end RunControl
