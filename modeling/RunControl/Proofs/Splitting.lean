import RunControl.Proofs.Batch

namespace RunControl

namespace Scripted

def StopsAt (e : Scripted) (j : Nat) : Prop :=
  j = e.program.size ∨ (∃ a, e.program[j]? = some a ∧ e.registered.contains a = true) ∨
    e.blocks.contains j = true

theorem stopsAt_iff {e : Scripted} {j : Nat} (hj : j ≤ e.program.size) :
    e.StopsAt j ↔ e.isFree j = false := by
  rcases Nat.eq_or_lt_of_le hj with rfl | hlt
  · simp [StopsAt, isFree]
  · simp only [StopsAt, isFree, Array.getElem?_eq_getElem hlt, Nat.ne_of_lt hlt]
    cases hr : e.registered.contains e.program[j] <;> cases hk : e.blocks.contains j <;> simp [hr]

theorem isLeast_stopsAt {e : Scripted} {p : Nat} (hp : p ≤ e.program.size) :
    IsLeast {j | p ≤ j ∧ e.StopsAt j} (e.restFrom p) := by
  have hle := restFrom_le_size hp
  refine ⟨⟨e.le_restFrom p, (stopsAt_iff hle).mpr (e.isFree_restFrom p)⟩, ?_⟩
  rintro j ⟨hj, hs⟩
  by_contra hlt
  have hf := isFree_of_lt_restFrom hj (Nat.not_le.mp hlt)
  rw [(stopsAt_iff (by omega)).mp hs] at hf
  cases hf

structure Walked (e : Scripted) (limit : Nat) (state : CpuState) (e' : Scripted) : Prop where
  position_eq : ∃ j, IsLeast {j | e.position ≤ j ∧ e.StopsAt j} j ∧
    e'.position = min (e.position + limit) j
  state_eq : state =
    if e'.position = e.program.size then .exit e.exitCode
    else if e'.position = e.position + limit then .running
    else if (e.program[e'.position]?).any e.registered.contains then .debugBreak
    else .blocked
  engine_eq : e' = { e with
    position := e'.position
    count := e.count + (e'.position - e.position)
    blocked := state == .blocked
    last := some state }

theorem stateAt_eq {e : Scripted} {limit q : Nat} :
    e.stateAt limit q =
      if q = e.program.size then .exit e.exitCode
      else if q = e.position + limit then .running
      else if (e.program[q]?).any e.registered.contains then .debugBreak
      else .blocked := by
  simp only [stateAt]
  split
  · rfl
  · split
    · rfl
    · obtain hq | ⟨a, hq⟩ := Option.eq_none_or_eq_some e.program[q]?
      · simp [halt?, hq]
      · cases hr : e.registered.contains a <;> simp [halt?, hq, hr]

theorem Coherent.walked_run {e : Scripted} (h : e.Coherent) (hx : e.exited = false)
    (hb : e.blocked = false) (limit : Nat) : Walked e limit (e.run limit).1 (e.run limit).2 := by
  rw [h.run_of_free hx hb]
  refine ⟨⟨_, isLeast_stopsAt h.position_le, rfl⟩, stateAt_eq, rfl⟩

theorem Coherent.run_one {e : Scripted} (h : e.Coherent) (hr : e.registered = .empty)
    (hb : e.blocked = false) (hp : e.position < e.program.size) :
    e.run 1 =
      if e.blocks.contains e.position then
        (.blocked, e.moveTo e.position true (some .blocked))
      else
        let state := if e.position + 1 = e.program.size then .exit e.exitCode else .running
        (state, e.moveTo (e.position + 1) false (some state)) := by
  have hx : e.exited = false := by
    by_contra hx
    have hs := (exited_of_position_eq h (by simpa using hx)).1
    omega
  have hfree : e.isFree e.position = !e.blocks.contains e.position := by
    simp [isFree, Array.getElem?_eq_getElem hp, hr]
  have hge := e.le_restFrom e.position
  rw [h.run_of_free hx hb]
  cases hk : e.blocks.contains e.position with
  | true =>
      have hrest : e.restFrom e.position = e.position :=
        restFrom_unique le_rfl (fun j h1 h2 => by omega) (by rw [hfree, hk]; rfl)
      have hq : min (e.position + 1) (e.restFrom e.position) = e.position := by omega
      have hs : e.stateAt 1 e.position = .blocked := by
        simp [stateAt, Nat.ne_of_lt hp, halt?, Array.getElem?_eq_getElem hp, hr]
      simp only [hq, hs]
      rfl
  | false =>
      have hne : e.restFrom e.position ≠ e.position := by
        intro heq
        have hn := e.isFree_restFrom e.position
        rw [heq, hfree, hk] at hn
        cases hn
      have hq : min (e.position + 1) (e.restFrom e.position) = e.position + 1 := by omega
      have hs : e.stateAt 1 (e.position + 1) =
          if e.position + 1 = e.program.size then .exit e.exitCode else .running := by
        simp [stateAt]
      simp only [hq, hs]
      split <;> rfl

theorem run_moveTo {e : Scripted} {q : Nat} {l : Option CpuState}
    (hc : (e.moveTo q false l).Coherent) (hx : (e.moveTo q false l).exited = false)
    (h1 : e.position ≤ q) (h2 : q ≤ e.restFrom e.position) (limit : Nat) :
    let r := min (q + limit) (e.restFrom e.position)
    let state := (e.moveTo q false l).stateAt limit r
    (e.moveTo q false l).run limit = (state, e.moveTo r (state == .blocked) (some state)) := by
  intro r state
  have hpos : (e.moveTo q false l).position = q := rfl
  have hrun := hc.run_of_free hx rfl limit
  simp only [hpos, restFrom_moveTo h1 h2] at hrun
  rw [hrun, moveTo_moveTo h1 (by omega : q ≤ r)]

theorem stateAt_moveTo {e : Scripted} {a b q r : Nat} (h : r = q + b ↔ r = e.position + (a + b))
    (l : Option CpuState) : (e.moveTo q false l).stateAt b r = e.stateAt (a + b) r := by
  have hm : (e.moveTo q false l).stateAt b r = if r = e.program.size then .exit e.exitCode
      else if r = q + b then .running else (e.halt? r).getD .blocked := rfl
  rw [hm, stateAt]
  simp only [h]

theorem restFrom_of_halted {e : Scripted} {limit : Nat} (hp : e.position ≤ e.program.size)
    (hs : e.stateAt limit (min (e.position + limit) (e.restFrom e.position)) ≠ .running) :
    min (e.position + limit) (e.restFrom e.position) = e.restFrom e.position ∧
      (e.restFrom e.position = e.program.size ∨ e.restFrom e.position < e.position + limit) := by
  have hle := restFrom_le_size hp
  by_cases hlt : e.restFrom e.position < e.position + limit
  · exact ⟨Nat.min_eq_right hlt.le, .inr hlt⟩
  · have hq : min (e.position + limit) (e.restFrom e.position) = e.position + limit := by omega
    have hend : e.position + limit = e.program.size := by
      by_contra hn
      rw [hq, stateAt, if_neg hn, if_pos rfl] at hs
      exact hs rfl
    omega

theorem stateAt_add {e : Scripted} {a q : Nat} (b : Nat)
    (h : q = e.program.size ∨ q < e.position + a) : e.stateAt (a + b) q = e.stateAt a q := by
  rcases h with rfl | hlt
  · simp only [stateAt, if_pos]
  · simp only [stateAt, if_neg (by omega : q ≠ e.position + (a + b)), if_neg (Nat.ne_of_lt hlt)]

theorem Coherent.run_add_of_halted {e : Scripted} (h : e.Coherent) {a : Nat}
    (hs : (e.run a).1 ≠ .running) (b : Nat) : e.run (a + b) = e.run a := by
  cases hx : e.exited with
  | true => rw [h.run_of_exited hx, h.run_of_exited hx]
  | false =>
      cases hb : e.blocked with
      | true => rw [h.run_of_blocked hx hb, h.run_of_blocked hx hb]
      | false =>
          rw [h.run_of_free hx hb] at hs ⊢
          rw [h.run_of_free hx hb]
          obtain ⟨hq, hend⟩ := restFrom_of_halted h.position_le hs
          have hq' : min (e.position + (a + b)) (e.restFrom e.position) = e.restFrom e.position := by
            omega
          simp only [hq, hq', stateAt_add b hend]

theorem run_of_debugBreak {e : Scripted} {a b : Nat}
    (hc : (e.moveTo (e.restFrom e.position) false (some .debugBreak)).Coherent)
    (hend : e.restFrom e.position = e.program.size ∨ e.restFrom e.position < e.position + a)
    (hst : e.stateAt a (e.restFrom e.position) = .debugBreak) (hpos : 0 < b) :
    (e.moveTo (e.restFrom e.position) false (some .debugBreak)).run b =
      (.debugBreak, e.moveTo (e.restFrom e.position) false (some .debugBreak)) := by
  have hne : ¬ e.restFrom e.position = e.program.size := by
    intro heq
    rw [heq, stateAt, if_pos rfl] at hst
    cases hst
  have hmin : min (e.restFrom e.position + b) (e.restFrom e.position) = e.restFrom e.position :=
    Nat.min_eq_right (Nat.le_add_right _ b)
  have hagain : (e.moveTo (e.restFrom e.position) false (some .debugBreak)).stateAt b
      (e.restFrom e.position) = .debugBreak := by
    rw [stateAt_moveTo (a := a) (by omega), stateAt_add b hend, hst]
  have hrun := run_moveTo hc rfl (e.le_restFrom e.position) le_rfl b
  simp only [hmin, hagain] at hrun
  exact hrun

theorem Coherent.run_of_halted {e : Scripted} (h : e.Coherent) {a b : Nat}
    (hs : (e.run a).1 ≠ .running) (hpos : 0 < b) : (e.run a).2.run b = e.run a := by
  have hc := h.run a
  cases hx : e.exited with
  | true =>
      rw [h.run_of_exited hx]
      exact h.run_of_exited hx b
  | false =>
      cases hb : e.blocked with
      | true =>
          rw [h.run_of_blocked hx hb] at hc ⊢
          exact hc.run_of_blocked rfl hb b
      | false =>
          rw [h.run_of_free hx hb] at hs hc ⊢
          obtain ⟨hq, hend⟩ := restFrom_of_halted h.position_le hs
          rw [hq] at hs hc ⊢
          cases hst : e.stateAt a (e.restFrom e.position) with
          | running => exact absurd hst hs
          | error message => exact absurd hst (e.stateAt_ne_error a _ message)
          | exit code =>
              rw [hst] at hc
              obtain ⟨-, rfl⟩ := stateAt_eq_exit hst
              exact hc.run_of_exited rfl b
          | blocked =>
              rw [hst] at hc
              exact hc.run_of_blocked rfl rfl b
          | debugBreak =>
              rw [hst] at hc
              exact run_of_debugBreak hc hend hst hpos

theorem Coherent.run_of_running {e : Scripted} (h : e.Coherent) {a : Nat}
    (hs : (e.run a).1 = .running) (b : Nat) : (e.run a).2.run b = e.run (a + b) := by
  have hc := h.run a
  cases hx : e.exited with
  | true =>
      rw [h.run_of_exited hx] at hs
      cases hs
  | false =>
      cases hb : e.blocked with
      | true =>
          rw [h.run_of_blocked hx hb] at hs
          cases hs
      | false =>
          rw [h.run_of_free hx hb a] at hs hc ⊢
          rw [h.run_of_free hx hb (a + b)]
          obtain ⟨-, hq⟩ := stateAt_isRunning (congrArg CpuState.isRunning hs)
          simp only [hq] at hs hc ⊢
          simp only [hs] at hc ⊢
          have hrun := run_moveTo hc rfl (Nat.le_add_right e.position a) (by omega) b
          have hsame : ∀ r, (e.moveTo (e.position + a) false (some .running)).stateAt b r =
              e.stateAt (a + b) r := fun r => stateAt_moveTo (by omega) _
          simp only [hsame, Nat.add_assoc] at hrun
          exact hrun

theorem walked_and_split {e : Scripted} (he : e.Reachable) :
    (e.exited = false → e.blocked = false → ∀ limit, Walked e limit (e.run limit).1 (e.run limit).2) ∧
      ∀ a b, 0 < b → (e.run a).2.run b = e.run (a + b) := by
  have h := he.coherent
  refine ⟨h.walked_run, fun a b hpos => ?_⟩
  by_cases hs : (e.run a).1 = .running
  · exact h.run_of_running hs b
  · rw [h.run_add_of_halted hs, h.run_of_halted hs hpos]

theorem walked_and_split_at_breakpoint :
    let e := Engine.perform (Scripted.ofProgram #[10, 20, 30, 40] [0, 2] 7 .empty) (.register 30)
    let d := Engine.perform (Engine.perform e (.run 1)) .unblock
    (d.exited = false ∧ d.blocked = false ∧ (d.run 2).1 = .running ∧ (d.run 3).1 = .debugBreak) ∧
      Walked d 3 (d.run 3).1 (d.run 3).2 ∧ (d.run 2).2.run 1 = d.run 3 := by
  intro e d
  have hd : d.Reachable := .perform .unblock (.perform (.run 1) (.perform (.register 30) (.ofProgram ..)))
  have hfacts : d.exited = false ∧ d.blocked = false ∧ (d.run 2).1 = .running ∧
      (d.run 3).1 = .debugBreak := by
    decide +kernel
  obtain ⟨hwalked, hsplit⟩ := walked_and_split hd
  exact ⟨hfacts, hwalked hfacts.1 hfacts.2.1 3, hsplit 2 1 (by decide)⟩

end Scripted

end RunControl
