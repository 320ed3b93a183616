import RunControl.Proofs.Sound

namespace RunControl

namespace Scripted

theorem Coherent.passed_run {e : Scripted} (h : e.Coherent) (limit : Nat) :
    (e.run limit).2.program = e.program ∧ e.position ≤ (e.run limit).2.position ∧
      (e.run limit).2.position ≤ e.position + limit ∧
      ∀ j, e.position ≤ j → j < (e.run limit).2.position → e.isFree j = true := by
  cases hx : e.exited with
  | true =>
      rw [h.run_of_exited hx]
      exact ⟨rfl, le_refl _, Nat.le_add_right _ _, fun j h1 h2 => absurd h2 (Nat.not_lt.mpr h1)⟩
  | false =>
      cases hb : e.blocked with
      | true =>
          rw [h.run_of_blocked hx hb]
          exact ⟨rfl, le_refl _, Nat.le_add_right _ _, fun j h1 h2 => absurd h2 (Nat.not_lt.mpr h1)⟩
      | false =>
          rw [h.run_of_free hx hb]
          have hge := e.le_restFrom e.position
          refine ⟨rfl, ?_, ?_, fun j h1 h2 => ?_⟩
          · show e.position ≤ min _ _
            omega
          · show min _ _ ≤ _
            omega
          · have hj : j < min (e.position + limit) (e.restFrom e.position) := h2
            exact isFree_of_lt_restFrom h1 (by omega)

def Passed (e e' : Scripted) (j : Nat) : Prop :=
  e.position ≤ j ∧ j < e'.position

structure PassesNone (s : BreakpointSet) (e e' : Scripted) : Prop where
  program_eq : e'.program = e.program
  position_le : e.position ≤ e'.position
  not_armed : ∀ j a, Passed e e' j → e.program[j]? = some a → s.isArmedAt a = false

theorem PassesNone.refl (s : BreakpointSet) (e : Scripted) : PassesNone s e e :=
  ⟨rfl, le_refl _, fun _ _ hj _ => absurd hj.2 (Nat.not_lt.mpr hj.1)⟩

theorem PassesNone.trans {s : BreakpointSet} {e e' e'' : Scripted} (h : PassesNone s e e')
    (h' : PassesNone s e' e'') : PassesNone s e e'' := by
  refine ⟨h'.program_eq.trans h.program_eq, h.position_le.trans h'.position_le, ?_⟩
  intro j a hj ha
  by_cases hlt : j < e'.position
  · exact h.not_armed j a ⟨hj.1, hlt⟩ ha
  · exact h'.not_armed j a ⟨Nat.not_lt.mp hlt, hj.2⟩ (by rwa [h.program_eq])

theorem passesNone_batch {e : Scripted} (h : e.Coherent) (s : BreakpointSet) (limit : Nat) :
    PassesNone s e (Engine.batch s.enabled limit e).2 := by
  have hb : (Engine.batch s.enabled limit e).2.program = ((e.armed s).run limit).2.program ∧
      (Engine.batch s.enabled limit e).2.position = ((e.armed s).run limit).2.position := by
    simp only [Engine.batch, foldl_register, foldl_clear]
    exact ⟨rfl, rfl⟩
  obtain ⟨hprog, hle, -, hfree⟩ := (h.armed s).passed_run limit
  refine ⟨hb.1.trans hprog, hle.trans_eq hb.2.symm, ?_⟩
  rintro j a ⟨h1, h2⟩ ha
  rw [hb.2] at h2
  have hf := hfree j h1 h2
  have hpa : (e.armed s).program[j]? = some a := ha
  simp only [isFree, hpa, Bool.and_eq_true, Bool.not_eq_true'] at hf
  have hr := hf.1
  rw [armed, contains_foldl_insert, Bool.or_eq_false_iff, decide_eq_false_iff_not,
    BreakpointSet.mem_enabled_iff] at hr
  simpa using hr.1

structure StepsOnce (e e' : Scripted) : Prop where
  program_eq : e'.program = e.program
  position_le : e.position ≤ e'.position
  le_succ : e'.position ≤ e.position + 1

theorem StepsOnce.refl (e : Scripted) : StepsOnce e e :=
  ⟨rfl, le_refl _, Nat.le_succ _⟩

theorem StepsOnce.eq_of_passed {e e' : Scripted} (h : StepsOnce e e') {j : Nat} (hj : Passed e e' j) :
    j = e.position :=
  Nat.le_antisymm (Nat.le_of_lt_succ (hj.2.trans_le h.le_succ)) hj.1

theorem position_unblock (e : Scripted) : e.unblock.position = e.position := by
  simp only [unblock]
  split <;> rfl

theorem program_unblock (e : Scripted) : e.unblock.program = e.program := by
  simp only [unblock]
  split <;> rfl

theorem stepsOnce_unblock (e : Scripted) : StepsOnce e e.unblock :=
  ⟨e.program_unblock, e.position_unblock.ge, e.position_unblock.trans_le (Nat.le_succ _)⟩

theorem stepsOnce_run {e : Scripted} (h : e.Coherent) : StepsOnce e (e.unblock.run 1).2 := by
  obtain ⟨hprog, hle, hsucc, -⟩ := h.unblock.passed_run 1
  rw [position_unblock] at hle hsucc
  exact ⟨hprog.trans e.program_unblock, hle, hsucc⟩

end Scripted

namespace Scheduler

variable {σ : Type}

theorem stepsOnce_start {c : Scheduler Scripted σ} (h : c.engine.Coherent) :
    Scripted.StepsOnce c.engine c.start.engine := by
  cases hr : c.running with
  | true =>
      rw [start_eq_self hr]
      exact .refl c.engine
  | false =>
      rw [start_of_idle hr]
      simp only [startEngine]
      split
      · have hu := Scripted.stepsOnce_run h.unblock
        exact ⟨hu.program_eq.trans c.engine.program_unblock,
          c.engine.position_unblock.ge.trans hu.position_le,
          hu.le_succ.trans_eq (congrArg (· + 1) c.engine.position_unblock)⟩
      · exact Scripted.stepsOnce_unblock c.engine

variable [Storage σ]

theorem passesNone_tick {c : Scheduler Scripted σ} (h : c.engine.Coherent) :
    Scripted.PassesNone c.store.set c.engine c.tick.engine := by
  have hb := Scripted.passesNone_batch h c.store.set c.throughput.stepSize.toNat
  obtain ⟨he, -⟩ | ⟨he, -⟩ := c.kept_or_batched
  · rw [he]
    exact .refl _ _
  · rw [he]
    exact hb

theorem clear_of_running_tick {c : Scheduler Scripted σ} (h : c.tick.running = true) :
    c.tick.store = c.store ∧ c.tick.store.set.isArmedAt c.tick.engine.instructionPointer = false := by
  have hn := foundNothing_of_running h
  refine ⟨hn.store_eq, ?_⟩
  rw [hn.store_eq]
  exact hn.unarmed

/-- That the next tick passes no breakpoint that is enabled when it begins, and that it stands at none
when it leaves the run under way. -/
structure TickStopsShort (c : Scheduler Scripted σ) : Prop where
  passed : ∀ j a, Scripted.Passed c.engine c.tick.engine j → c.engine.program[j]? = some a →
    c.store.set.isArmedAt a = false
  clear : c.tick.running = true →
    c.tick.store.set.isArmedAt c.tick.engine.instructionPointer = false

theorem tickStopsShort {c : Scheduler Scripted σ} (h : c.engine.Coherent) : c.TickStopsShort :=
  ⟨(passesNone_tick h).not_armed, fun hr => (clear_of_running_tick hr).2⟩

theorem passesNone_driveFrom {c : Scheduler Scripted σ} (h : c.engine.Coherent) (k limit : Nat) :
    Scripted.PassesNone c.store.set c.engine (driveFrom k limit c).2.engine := by
  induction limit generalizing c k with
  | zero => exact .refl _ _
  | succ limit ih =>
      simp only [driveFrom, takeTick?]
      cases c.ticks.take? with
      | none => exact .refl _ _
      | some ticks =>
          have ht := passesNone_tick (c := { c with ticks }) h
          cases hr : (tick ({ c with ticks } : Scheduler Scripted σ)).running with
          | false =>
              obtain ⟨rest, pending, hd⟩ := exists_driveFrom_of_idle hr (k + 1) limit
              simp only [Option.map_some, hd]
              exact ht
          | true =>
              have hi := ih (coherent_tick (c := { c with ticks }) h) (k + 1)
              rw [(clear_of_running_tick hr).1] at hi
              exact ht.trans hi

end Scheduler

namespace Session

variable {σ : Type} [Storage σ]

def Op.steps : Op → Bool
  | .start => true
  | .step => true
  | .runTo _ => true
  | .request .start => true
  | .request .step => true
  | .request (.runTo _) => true
  | _ => false

theorem passesNone_turn {s : Session Scripted σ} (h : s.scheduler.engine.Coherent) :
    Scripted.PassesNone s.scheduler.store.set s.scheduler.engine s.turn.scheduler.engine := by
  rcases turn_cases s with ht | ⟨ticks, -, ht⟩
  · rw [ht]
    exact .refl _ _
  · rw [ht]
    exact Scheduler.passesNone_tick (c := { s.scheduler with ticks }) h

theorem stepsOnce_runTo {s : Session Scripted σ} (h : s.scheduler.engine.Coherent) (a : Address) :
    Scripted.StepsOnce s.scheduler.engine (s.runTo a).2.scheduler.engine := by
  obtain ⟨store, hr | hr⟩ := s.exists_runTo a
  · rw [hr]
    exact .refl _
  · rw [hr]
    exact Scheduler.stepsOnce_start (c := { s.scheduler with store }) h

theorem passesNone_addByName (s : Session Scripted σ) (name : String) :
    Scripted.PassesNone s.scheduler.store.set s.scheduler.engine
      (s.addByName name).2.scheduler.engine := by
  obtain ⟨store, hr⟩ := s.exists_addByName name
  rw [hr]
  exact .refl _ _

theorem stepsOnce_apply {s : Session Scripted σ} (h : s.scheduler.engine.Coherent) {op : Op}
    (ho : op.steps = true) :
    Scripted.StepsOnce s.scheduler.engine (s.apply op).scheduler.engine := by
  cases op with
  | start => exact Scheduler.stepsOnce_start h
  | step => exact Scripted.stepsOnce_run h
  | runTo a => exact stepsOnce_runTo h a
  | request r =>
      cases r with
      | start => exact Scheduler.stepsOnce_start h
      | step => exact Scripted.stepsOnce_run h
      | runTo a => exact stepsOnce_runTo h a
      | _ => exact absurd ho Bool.false_ne_true
  | _ => exact absurd ho Bool.false_ne_true

theorem passesNone_apply {s : Session Scripted σ} (h : s.scheduler.engine.Coherent) {op : Op}
    (ho : op.steps = false) :
    Scripted.PassesNone s.scheduler.store.set s.scheduler.engine (s.apply op).scheduler.engine := by
  cases op with
  | start => cases ho
  | step => cases ho
  | runTo a => cases ho
  | tick => exact Scheduler.passesNone_tick h
  | turn => exact passesNone_turn h
  | drive limit => exact Scheduler.passesNone_driveFrom h 0 limit
  | addByName name => exact passesNone_addByName s name
  | request r =>
      cases r with
      | start => cases ho
      | step => cases ho
      | runTo a => cases ho
      | addBreakByName name => exact passesNone_addByName s name
      | _ => exact .refl _ _
  | _ => exact .refl _ _

structure NeverOverruns (s : Session Scripted σ) : Prop where
  tick : s.scheduler.TickStopsShort
  turn : ∀ c, s.scheduler.takeTick? = some c → c.TickStopsShort
  stepped : ∀ op j a, Scripted.Passed s.scheduler.engine (s.apply op).scheduler.engine j →
    s.scheduler.engine.program[j]? = some a → s.scheduler.store.set.isArmedAt a = true →
    op.steps = true ∧ j = s.scheduler.engine.position

theorem neverOverruns_run {e : Scripted} (he : e.Reachable) (key : String)
    (given : List (Address × String)) (storage : σ) (ticks : TickRequests) (config : SchedulerConfig)
    (w : Stopwatch) (ops : List Op) :
    ((create e key given storage ticks config w).run ops).NeverOverruns := by
  have h := kept_coherent.run (s := create e key given storage ticks config w) he.coherent ops
  generalize (create e key given storage ticks config w).run ops = s at h
  refine ⟨Scheduler.tickStopsShort h, fun c hc => ?_, ?_⟩
  · obtain ⟨ticks, -, rfl⟩ := Option.map_eq_some_iff.mp hc
    exact Scheduler.tickStopsShort h
  · intro op j a hj hp ha
    cases ho : op.steps with
    | true => exact ⟨rfl, (stepsOnce_apply h ho).eq_of_passed hj⟩
    | false =>
        have hn := (passesNone_apply h ho).not_armed j a hj hp
        rw [ha] at hn
        cases hn

theorem neverOverruns_run_edited :
    ((create (.ofProgram #[10, 20, 10, 30] [1] 0 .empty) "p" [] (⟨.empty, 0, [2]⟩ : FlakyStorage)
      .channel .standard .still : Session Scripted FlakyStorage).run
        [.add (.standing 10), .start, .runTo 30, .turn, .toggle 10, .tick]).NeverOverruns := by
  have he : (Scripted.ofProgram #[10, 20, 10, 30] [1] 0 .empty).Reachable := .ofProgram ..
  exact neverOverruns_run he "p" [] (⟨.empty, 0, [2]⟩ : FlakyStorage) .channel .standard .still
    [.add (.standing 10), .start, .runTo 30, .turn, .toggle 10, .tick]

end Session

end RunControl
