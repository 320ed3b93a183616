import RunControl.Json.Decoder

namespace RunControl

open Json

inductive CpuState where
  | running
  | blocked
  | debugBreak
  | exit (code : UInt32)
  | error (message : String)
  deriving DecidableEq, Repr

namespace CpuState

def isRunning : CpuState → Bool
  | .running => true
  | _ => false

def describe : CpuState → String
  | .running => "running"
  | .blocked => "blocked"
  | .debugBreak => "debug break"
  | .exit code => s!"exited with code {code}"
  | .error message => "error: " ++ message

def toNode : CpuState → Node
  | .running => .object [("state", .ofString "running")]
  | .blocked => .object [("state", .ofString "blocked")]
  | .debugBreak => .object [("state", .ofString "debug_break")]
  | .exit code => .object [("state", .ofString "exit"), ("detail", .ofNat code.toNat)]
  | .error message => .object [("state", .ofString "error"), ("detail", .ofString message)]

inductive Tag where
  | running
  | blocked
  | debugBreak
  | exit
  | error
  deriving DecidableEq, Repr

def tags : List (Variant Tag) :=
  [⟨"running", .unit .running⟩, ⟨"blocked", .unit .blocked⟩, ⟨"debug_break", .unit .debugBreak⟩,
    ⟨"exit", .unit .exit⟩, ⟨"error", .unit .error⟩]

def Tag.alone : Tag → Except Fault CpuState
  | .running => .ok .running
  | .blocked => .ok .blocked
  | .debugBreak => .ok .debugBreak
  | .exit => .error (.data [] (.missingField "detail"))
  | .error => .error (.data [] (.missingField "detail"))

def Tag.withDetail : Tag → Decoder CpuState
  | .running, n => (Decoder.unit "unit variant CpuState::Running" n).map fun _ => .running
  | .blocked, n => (Decoder.unit "unit variant CpuState::Blocked" n).map fun _ => .blocked
  | .debugBreak, n =>
      (Decoder.unit "unit variant CpuState::DebugBreak" n).map fun _ => .debugBreak
  | .exit, n => (Decoder.word32 n).map .exit
  | .error, n => (Decoder.string n).map .error

inductive Part where
  | state
  | detail
  deriving DecidableEq, Repr

def Part.name : Part → String
  | .state => "state"
  | .detail => "detail"

def nextPart : Members → Except Fault (Option (Part × Node × Members))
  | .closed => .ok none
  | .cons (some k) n r =>
      if k = "state" then .ok (some (.state, n, r))
      else if k = "detail" then .ok (some (.detail, n, r))
      else if n.intact then nextPart r
      else .error .grammar
  | _ => .error .grammar

def finish (s : CpuState) (rest : Members) : Except Fault CpuState := do
  match ← nextPart rest with
  | none => .ok s
  | some (part, _, _) => .error (.data [] (.duplicateField part.name))

def readTag (n : Node) : Except Fault Tag :=
  within (.name "state") (Variant.decode tags n)

def readListedTag : Decoder Tag
  | .str (some name) => do (← Variant.select tags name).bare
  | n => .error (unexpected n "variant identifier")

/-- The members of a state. A detail that comes before the name of its state has to wait for it,
and may stand in no more than `room` lists and objects. -/
def ofMembers (room : Nat) (members : Members) : Except Fault CpuState := do
  match ← nextPart members with
  | none => .error (.data [] (.missingField "state"))
  | some (.state, n, rest) =>
      let tag ← readTag n
      match ← nextPart rest with
      | none => tag.alone
      | some (.state, _, _) => .error (.data [] (.duplicateField "state"))
      | some (.detail, d, rest) => finish (← within (.name "detail") (tag.withDetail d)) rest
  | some (.detail, d, rest) =>
      if d.bufferable room then
        match ← nextPart rest with
        | none => .error (.data [] (.missingField "state"))
        | some (.detail, _, _) => .error (.data [] (.duplicateField "detail"))
        | some (.state, n, rest) => finish (← (← readTag n).withDetail d) rest
      else .error .grammar

def expected : String := "adjacently tagged enum CpuState"

def ofItems : Items → Except Fault CpuState
  | .cons n rest => do
      let tag ← within (.index 0) (readListedTag n)
      match rest with
      | .cons d rest => do
          let s ← within (.index 1) (tag.withDetail d)
          match rest with
          | .closed => .ok s
          | _ => .error .grammar
      | .closed => .error (.data [] (.invalidLength 1 expected))
      | .broken => .error .grammar
  | .closed => .error (.data [] (.invalidLength 0 expected))
  | .broken => .error .grammar

def decode (outer : Nat) : Decoder CpuState
  | .map members => ofMembers (126 - outer) members
  | .seq items => ofItems items
  | n => .error (unexpected n expected)

end CpuState

end RunControl
