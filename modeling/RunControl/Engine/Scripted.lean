import RunControl.Engine.Basic

namespace RunControl

open Json

structure Trace where
  program : List Address
  imports : Table String String
  blocks : List Nat
  exitCode : UInt32
  mappings : List Mapping
  deriving DecidableEq

namespace Trace

def decode : Decoder Trace :=
  (Trace.mk <$> .required "program" (.list .word32) <*>
    .optional "imports" (.table .string) .empty <*>
    .optional "blocks" (.list (.natural 0x10000000000000000 "usize")) [] <*>
    .optional "exit_code" .word32 0 <*> .optional "mappings" (.list Mapping.decode) [] :
    Record Trace).decode "struct TraceFile" true

end Trace

/-- A walk along `program`. `blocks` are the positions where it still blocks, and `last` is what the
latest batch reported. -/
structure Scripted where
  name : Option String
  program : Array Address
  position : Nat
  count : Nat
  blocks : KeySet Nat
  blocked : Bool
  exitCode : UInt32
  last : Option CpuState
  symbols : SymbolTable
  mappings : List Mapping
  registered : KeySet Address
  deriving DecidableEq

namespace Scripted

def ofProgram (program : Array Address) (blocks : List Nat) (exitCode : UInt32)
    (symbols : SymbolTable) : Scripted where
  name := none
  program := program
  position := 0
  count := 0
  blocks := .ofList (blocks.map fun p => (p, ()))
  blocked := false
  exitCode := exitCode
  last := none
  symbols := symbols
  mappings := []
  registered := .empty

def idle : Scripted := ofProgram #[] [] 0 .empty

instance : Inhabited Scripted := ⟨idle⟩

def ofTrace (name : String) (t : Trace) (symbols : SymbolTable) : Scripted :=
  { ofProgram t.program.toArray t.blocks t.exitCode symbols with
    name := some name
    mappings := t.mappings }

def imageText (name : String) (image : ByteArray) : Except Error String :=
  match Text.Utf8.decode? image with
  | some text => .ok text
  | none => .error (.imageNotText name ((Text.Utf8.fault? image.toList).getD (.incomplete 0)))

def ofImage (name : String) (image : ByteArray) : Except Error Scripted :=
  match imageText name image with
  | .error e => .error e
  | .ok text =>
      match decodeText Trace.decode text with
      | .error e => .error (.payload "trace file" e)
      | .ok trace => (SymbolTable.ofKeys trace.imports).map (ofTrace name trace)

def endAddress (e : Scripted) : Address :=
  match e.program.back? with
  | some a => a + 1
  | none => 0

def instructionPointer (e : Scripted) : Address :=
  (e.program[e.position]?).getD e.endAddress

def walk (e : Scripted) : Nat → Nat → Nat × Option CpuState
  | 0, p => (p, none)
  | n + 1, p =>
      match e.program[p]? with
      | none => (p, none)
      | some a =>
          if e.registered.contains a then (p, some .debugBreak)
          else if e.blocks.contains p then (p, some .blocked)
          else walk e n (p + 1)

def report (e : Scripted) (s : CpuState) : CpuState × Scripted :=
  (s, { e with last := some s })

def runOn (e : Scripted) (limit : Nat) : CpuState × Scripted :=
  let (p, halt) := e.walk (min limit (e.program.size - e.position)) e.position
  let moved := { e with position := p, count := e.count + (p - e.position) }
  match halt with
  | some .blocked => { moved with blocked := true }.report .blocked
  | some s => moved.report s
  | none => moved.report (if e.program.size ≤ p then .exit e.exitCode else .running)

def run (e : Scripted) (limit : Nat) : CpuState × Scripted :=
  match e.last with
  | some (.exit code) => (.exit code, e)
  | some (.error message) => (.error message, e)
  | _ => if e.blocked then e.report .blocked else e.runOn limit

def unblock (e : Scripted) : Scripted :=
  if e.blocked then { e with blocked := false, blocks := e.blocks.erase e.position } else e

def instructionAt (a : Address) : Instruction where
  addr := a
  bytes := "90"
  code := [⟨"mnemonic", "nop"⟩]
  ops := []

def addressesFrom (e : Scripted) (a : Address) : List Address :=
  ((e.program.toList.filter (a ≤ ·)).mergeSort (· ≤ ·)).eraseReps

def disassemble (e : Scripted) (a : Address) (n : Nat) : List Instruction :=
  ((e.addressesFrom a).take n).map instructionAt

instance : FiniteEngine Scripted where
  load _ name image _ := ofImage name image
  symbols := symbols
  run := run
  instructionCount := count
  instructionPointer := instructionPointer
  register e a := { e with registered := e.registered.insert a () }
  clear e a := { e with registered := e.registered.erase a }
  unblock := unblock
  mappings := mappings
  disassemble e a n := (e.disassemble a n, e)
  batchesLeft e := e.program.size - e.position + 1

end Scripted

end RunControl
