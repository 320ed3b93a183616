import RunControl.Listing
import RunControl.Proofs.Restoring
import RunControl.Request

namespace RunControl

open Json

namespace Mapping

theorem toNode_eq (m : Mapping) :
    m.toNode = .object (present [("addr", some (.ofNat m.addr.toNat)),
      ("size", some (.ofNat m.size.toNat)), ("module", m.module.map .ofString),
      ("desc", some (.ofString m.desc))]) := by
  obtain ⟨addr, size, module, desc⟩ := m
  cases module <;> rfl

theorem spells_toNode (m : Mapping) : Spells decode m.toNode m := by
  rw [toNode_eq]
  have ha := Record.spells_required "addr" (spells_word32 m.addr)
  have hs := Record.spells_required "size" (spells_word32 m.size)
  have hm := Record.spells_absentable "module" spells_string m.module
  have hd := Record.spells_required "desc" (spells_string m.desc)
  exact ((((ha.map mk).seq hs).seq hm).seq hd).object (by simp) "struct Mapping" false

end Mapping

namespace InstructionPart

theorem spells_toNode (p : InstructionPart) : Spells decode p.toNode p := by
  have hk := Record.spells_required "kind" (spells_string p.kind)
  have ht := Record.spells_required "text" (spells_string p.text)
  exact ((hk.map mk).seq ht).object (by simp) "struct InstructionPart" false

end InstructionPart

namespace Instruction

theorem spells_toNode (i : Instruction) : Spells decode i.toNode i := by
  have ha := Record.spells_required "addr" (spells_word32 i.addr)
  have hb := Record.spells_required "bytes" (spells_string i.bytes)
  have hc := Record.spells_required "code" (spells_list InstructionPart.spells_toNode i.code)
  have ho := Record.spells_optional "ops" (spells_list spells_string i.ops) []
  exact ((((ha.map mk).seq hb).seq hc).seq ho).object (by simp) "struct Instruction" false

end Instruction

namespace CpuState

theorem spells_toNode (outer : Nat) (s : CpuState) : Spells (decode outer) s.toNode s := by
  cases s with
  | running => exact ⟨rfl, nofun, rfl⟩
  | blocked => exact ⟨rfl, nofun, rfl⟩
  | debugBreak => exact ⟨rfl, nofun, rfl⟩
  | exit code =>
      have hc := spells_word32 code
      refine ⟨Members.legible_ofList ?_, nofun, ?_⟩
      · rintro m (_ | ⟨_, _ | ⟨_, ⟨⟩⟩⟩)
        · rfl
        · exact hc.legible
      · change (within _ ((Decoder.word32 _).map CpuState.exit)).bind _ = _
        rw [hc.decoded]
        rfl
  | error message => exact ⟨rfl, nofun, rfl⟩

end CpuState

namespace DebugRequest

theorem spells_fields {name : String} {r : Record DebugRequest} {slots : List (String × Option Node)}
    {q : DebugRequest} (hs : Variant.select variants name = .ok (withFields name r))
    (h : r.Spells slots q) (hd : (slots.map Prod.fst).Nodup) :
    Spells decode (tagged name (present slots)) q :=
  Variant.spells_content hs (.inr rfl) (h.object hd ("struct variant DebugRequest::" ++ name) false)

theorem spells_toNode (r : DebugRequest) : Spells decode r.toNode r := by
  have haddress (a : Address) := Record.spells_required "address" (spells_word32 a)
  cases r with
  | start => exact Variant.spells_unit rfl
  | stop => exact Variant.spells_unit rfl
  | step => exact Variant.spells_unit rfl
  | runTo a => exact spells_fields rfl ((haddress a).map runTo) (by simp)
  | addBreakpoint a oneShot =>
      have ho := Record.spells_optional "one_shot" (spells_boolean oneShot) false
      exact spells_fields rfl (((haddress a).map addBreakpoint).seq ho) (by simp)
  | addBreakByName name =>
      have hn := Record.spells_required "name" (spells_string name)
      exact spells_fields rfl (hn.map addBreakByName) (by simp)
  | removeBreakpoint a => exact spells_fields rfl ((haddress a).map removeBreakpoint) (by simp)
  | toggleBreakpoint a => exact spells_fields rfl ((haddress a).map toggleBreakpoint) (by simp)
  | listBreakpoints => exact Variant.spells_unit rfl
  | getState => exact Variant.spells_unit rfl

end DebugRequest

theorem Json.realLexeme?_zero : realLexeme? 0 = some ['0', '.', '0'] := by
  decide +kernel

theorem Json.ofLexeme?_zero : Number.ofLexeme? ['0', '.', '0'] = some (.real 0) := by
  have hdown : Number.scaleDown (UInt64.ofNat 0).toFloat 1 = 0 := by
    rw [Number.scaleDown, if_pos (by decide)]
    decide +kernel
  have hscaled : Number.Scaled.toFloat? ⟨0, -1⟩ = some 0 := by
    change some (Number.scaleDown (UInt64.ofNat 0).toFloat 1) = _
    rw [hdown]
  change (Number.Scaled.toFloat? ⟨0, -1⟩).map (Number.signed false) = _
  rw [hscaled]
  rfl

theorem Json.spells_zero : Spells .real (.ofFloat 0) 0 := by
  rw [Node.ofFloat, realLexeme?_zero]
  refine ⟨rfl, nofun, ?_⟩
  simp only [Decoder.real, ofLexeme?_zero]

namespace DebugState

def unmeasured (s : DebugState) : DebugState :=
  { s with instrPerMs := 0 }

def shownWith (s : DebugState) (n : Node) : Node :=
  .object (present [("running", some (.bool s.running)),
    ("instruction_pointer", some (.ofNat s.instructionPointer.toNat)),
    ("location", some (.ofString s.location)),
    ("instruction_count", some (.ofNat s.instructionCount.toNat)),
    ("step_size", some (.ofNat s.stepSize.toNat)), ("instr_per_ms", some n),
    ("cpu_state", s.cpuState.map CpuState.toNode),
    ("breakpoints", some (.list (s.breakpoints.map Breakpoint.toNode)))])

theorem toNode_eq (s : DebugState) : s.toNode = s.shownWith (.ofFloat s.instrPerMs) := by
  obtain ⟨running, pointer, location, count, size, rate, cpuState, breakpoints⟩ := s
  cases cpuState <;> rfl

theorem spells_shownWith (outer : Nat) (s : DebugState) {n : Node} {x : Float} (h : Spells .real n x) :
    Spells (decode outer) (s.shownWith n) { s with instrPerMs := x } := by
  have hr := Record.spells_required "running" (spells_boolean s.running)
  have hp := Record.spells_required "instruction_pointer" (spells_word32 s.instructionPointer)
  have hl := Record.spells_required "location" (spells_string s.location)
  have hn := Record.spells_required "instruction_count" (spells_word64 s.instructionCount "u64")
  have hz := Record.spells_required "step_size" (spells_word64 s.stepSize "usize")
  have hm := Record.spells_required "instr_per_ms" h
  have hc := Record.spells_absentable "cpu_state" (CpuState.spells_toNode (outer + 1)) s.cpuState
  have hb := Record.spells_required "breakpoints" (spells_list Breakpoint.spells_toNode s.breakpoints)
  exact ((((((((hr.map mk).seq hp).seq hl).seq hn).seq hz).seq hm).seq hc).seq hb).object (by simp)
    "struct DebugState" false

end DebugState

namespace DebugResponse

def unmeasured : DebugResponse → DebugResponse
  | .state s => .state s.unmeasured
  | r => r

theorem spells_map {α : Type} {d : Decoder α} {n : Node} {a : α} (h : Spells d n a) (f : α → DebugResponse) :
    Spells (fun n => (d n).map f) n (f a) :=
  ⟨h.legible, h.solid, congrArg (Except.map f) h.decoded⟩

theorem spells_state (s : DebugState) {n : Node} {x : Float} (h : Spells .real n x) :
    Spells decode (.object [("State", s.shownWith n)]) (.state { s with instrPerMs := x }) :=
  Variant.spells_content rfl (.inl rfl) (spells_map (s.spells_shownWith 1 h) state)

theorem spells_toNode (r : DebugResponse) : Spells decode r.unmeasured.toNode r.unmeasured := by
  cases r with
  | ok => exact Variant.spells_unit rfl
  | error message =>
      exact Variant.spells_content rfl (.inl rfl) (spells_map (spells_string message) error)
  | breakpoints list =>
      have hl := spells_list Breakpoint.spells_toNode list
      exact Variant.spells_content rfl (.inl rfl) (spells_map hl breakpoints)
  | state s =>
      change Spells decode (.object [("State", s.unmeasured.toNode)]) _
      rw [s.unmeasured.toNode_eq]
      exact spells_state s spells_zero
  | resolved address =>
      cases address with
      | none => exact ⟨rfl, nofun, rfl⟩
      | some a =>
          have ha := spells_nullable (spells_word32 a)
          exact Variant.spells_content rfl (.inl rfl) (spells_map ha resolved)

end DebugResponse

theorem decodeText_text :
    (∀ r : DebugRequest, decodeText DebugRequest.decode r.toNode.text = .ok r) ∧
      (∀ outer (s : CpuState), decodeText (CpuState.decode outer) s.toNode.text = .ok s) ∧
      (∀ ms : List Mapping,
        decodeText (.list Mapping.decode) (Node.list (ms.map Mapping.toNode)).text = .ok ms) ∧
      (∀ is : List Instruction,
        decodeText (.list Instruction.decode) (Node.list (is.map Instruction.toNode)).text = .ok is) ∧
      (∀ bs : List Breakpoint,
        decodeText (.list Breakpoint.decode) (Node.list (bs.map Breakpoint.toNode)).text = .ok bs) ∧
      ∀ r : DebugResponse,
        decodeText DebugResponse.decode r.unmeasured.toNode.text = .ok r.unmeasured := by
  refine ⟨fun r => ?_, fun outer s => ?_, fun ms => ?_, fun is => ?_, fun bs => ?_, fun r => ?_⟩
  · exact r.spells_toNode.decodeText
  · exact (s.spells_toNode outer).decodeText
  · exact (spells_list Mapping.spells_toNode ms).decodeText
  · exact (spells_list Instruction.spells_toNode is).decodeText
  · exact (spells_list Breakpoint.spells_toNode bs).decodeText
  · exact r.spells_toNode.decodeText

end RunControl
