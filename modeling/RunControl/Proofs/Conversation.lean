import RunControl.CommandLine.Commands
import RunControl.Proofs.Json.Printed
import RunControl.Proofs.Progress
import RunControl.Proofs.RoundTrip

namespace RunControl

open Json

theorem Breakpoint.printed_toNode (b : Breakpoint) : Printed b.toNode.render := by
  rw [toNode_eq]
  have hflag : ∀ (name : String) (set : Bool),
      PrintedSlot (name, if set then some (Node.bool true) else none) := by
    rintro name (_ | _)
    · exact nofun
    · exact printedSlot_some name (printed_bool true)
  apply printed_present
  simp only [List.forall_mem_cons]
  exact ⟨printedSlot_some _ (printed_ofNat _), hflag _ _, hflag _ _, nofun⟩

theorem printed_breakpoints (bs : List Breakpoint) :
    Printed (Node.list (bs.map Breakpoint.toNode)).render := by
  apply printed_list
  intro n hn
  obtain ⟨b, -, rfl⟩ := List.mem_map.mp hn
  exact b.printed_toNode

theorem CpuState.printed_toNode (s : CpuState) : Printed s.toNode.render := by
  cases s with
  | exit code =>
      apply printed_object
      simp only [List.forall_mem_cons]
      exact ⟨printed_ofString _, printed_ofNat _, nofun⟩
  | error message =>
      apply printed_object
      simp only [List.forall_mem_cons]
      exact ⟨printed_ofString _, printed_ofString _, nofun⟩
  | _ =>
      apply printed_object
      simp only [List.forall_mem_cons]
      exact ⟨printed_ofString _, nofun⟩

theorem DebugState.printed_toNode (s : DebugState) : Printed s.toNode.render := by
  rw [toNode_eq, shownWith]
  have hcpu : PrintedSlot ("cpu_state", s.cpuState.map CpuState.toNode) := by
    cases s.cpuState with
    | none => exact nofun
    | some state => exact printedSlot_some _ state.printed_toNode
  apply printed_present
  simp only [List.forall_mem_cons]
  exact ⟨printedSlot_some _ (printed_bool _), printedSlot_some _ (printed_ofNat _),
    printedSlot_some _ (printed_ofString _), printedSlot_some _ (printed_ofNat _),
    printedSlot_some _ (printed_ofNat _), printedSlot_some _ (printed_ofFloat _), hcpu,
    printedSlot_some _ (printed_breakpoints _), nofun⟩

theorem DebugResponse.printed_toNode (r : DebugResponse) : Printed r.toNode.render := by
  have htagged : ∀ (name : String) {n : Node}, Printed n.render →
      Printed (Node.object [(name, n)]).render := by
    intro name n hn
    exact printed_object (List.forall_mem_singleton.mpr hn)
  cases r with
  | ok => exact printed_ofString "Ok"
  | error message => exact htagged "Error" (printed_ofString message)
  | breakpoints list => exact htagged "Breakpoints" (printed_breakpoints list)
  | state s => exact htagged "State" s.printed_toNode
  | resolved address =>
      cases address with
      | none => exact htagged "Resolved" (by decide : Printed ['n', 'u', 'l', 'l'])
      | some a => exact htagged "Resolved" (printed_ofNat a.toNat)

/-- That a line is the text of a response and of nothing else. A throughput is written as a numeral, and whatever
numeral stands in its place, the line reads back as the response with that throughput. -/
inductive DebugResponse.Tells : List Char → DebugResponse → Prop where
  | exact {line : List Char} {r : DebugResponse} (h : decodeWhole? decode (String.ofList line) = some r) :
      Tells line r
  | measured {before after : List Char} {s : DebugState}
      (h : ∀ (n : Node) (x : Float), n.legible = true → Decoder.real n = .ok x →
        decodeWhole? decode (String.ofList (before ++ n.render ++ after)) = some (.state { s with instrPerMs := x })) :
      Tells (before ++ (Node.ofFloat s.instrPerMs).render ++ after) (.state s)

namespace Session

variable {ε σ : Type} [Engine ε] [Storage σ]

inductive Converses : Session ε σ → List DebugRequest → List DebugResponse → Session ε σ → Prop
  | done (s : Session ε σ) : Converses s [] [] s
  | next {s t u final : Session ε σ} {r : DebugRequest} {rs : List DebugRequest}
      {response : DebugResponse} {responses : List DebugResponse} (answered : s.handle r = (response, t))
      (rests : t.DrivesTo u) (rest : Converses u rs responses final) :
      Converses s (r :: rs) (response :: responses) final

theorem Converses.length_eq {s final : Session ε σ} {rs : List DebugRequest}
    {responses : List DebugResponse} (h : Converses s rs responses final) :
    responses.length = rs.length := by
  induction h with
  | done s => rfl
  | next answered rests rest ih => rw [List.length_cons, List.length_cons, ih]

theorem Converses.eq {s t u : Session ε σ} {rs : List DebugRequest} {as bs : List DebugResponse}
    (ha : Converses s rs as t) (hb : Converses s rs bs u) : as = bs ∧ t = u := by
  induction ha generalizing bs with
  | done s =>
      cases hb
      exact ⟨rfl, rfl⟩
  | next answered rests rest ih =>
      cases hb with
      | next answered' rests' rest' =>
          obtain ⟨rfl, rfl⟩ := Prod.mk.inj (answered.symm.trans answered')
          obtain rfl := rests.eq rests'
          obtain ⟨rfl, rfl⟩ := ih rest'
          exact ⟨rfl, rfl⟩

end Session

namespace CommandLine.Surroundings

end CommandLine.Surroundings

end RunControl
