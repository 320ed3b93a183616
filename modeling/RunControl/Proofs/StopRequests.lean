import RunControl.Proofs.Bracketing

namespace RunControl

namespace Scheduler

variable {ε σ : Type} [Engine ε]

def enter (c : Scheduler ε σ) : Scheduler ε σ :=
  let c := { c with engine := Engine.unblock c.engine }.stepOff
  { c with lastHit := .none, running := true }.schedule

theorem start_eq_enter {c : Scheduler ε σ} (h : c.running = false) :
    c.start = enter { c with stopRequested := false } := by
  simp only [start, h, enter]
  rfl

theorem enter_eq (c : Scheduler ε σ) :
    c.enter = { c with
      engine := c.startEngine
      running := true
      tickPending := true
      ticks := if c.tickPending then c.ticks else c.ticks.request
      lastState := c.startState
      lastHit := .none } := by
  cases ha : c.store.set.isArmedAt (Engine.instructionPointer (Engine.unblock c.engine)) <;>
    cases hp : c.tickPending <;>
    simp [enter, stepOff, startEngine, startState, singleStep, schedule, ha, hp]

theorem enter_requestStop (c : Scheduler ε σ) : c.requestStop.enter = c.enter.requestStop := by
  rw [enter_eq, enter_eq]
  rfl

theorem running_start (c : Scheduler ε σ) : c.start.running = true := by
  cases h : c.running with
  | true => rw [start_eq_self h, h]
  | false => rw [start_of_idle h]

theorem stopRequested_start (c : Scheduler ε σ) :
    c.start.stopRequested = (c.running && c.stopRequested) := by
  cases h : c.running with
  | true => rw [start_eq_self h, Bool.true_and]
  | false =>
      rw [start_of_idle h]
      rfl

variable [Storage σ]

def tickOn (c : Scheduler ε σ) (asked : Bool) : Scheduler ε σ :=
  let c := { c with tickPending := false }
  if !c.running then c
  else if asked then c.stop
  else
    match c.batchStep with
    | (.ok true, c) => c.schedule
    | (.ok false, c) => c.reportHalt.stop
    | (.error e, c) => (c.tell (.error e.message)).stop

theorem tick_eq_tickOn (c : Scheduler ε σ) : c.tick = c.tickOn c.stopRequested :=
  rfl

theorem batchStep_requestStop (c : Scheduler ε σ) :
    ({ c.requestStop with tickPending := false } : Scheduler ε σ).batchStep =
      let r := ({ c with tickPending := false } : Scheduler ε σ).batchStep
      (r.1, r.2.requestStop) := by
  have hc : Arming.checkHit c.requestStop.store c.requestStop.batchEnd.2 c.requestStop.host =
      Arming.checkHit c.store c.batchEnd.2 c.host := rfl
  rw [batchStep_eq, batchStep_eq, hc]
  rcases Arming.checkHit c.store c.batchEnd.2 c.host with ⟨err | hit, store, host⟩ <;> rfl

theorem tickOn_requestStop (c : Scheduler ε σ) (asked : Bool) :
    c.requestStop.tickOn asked = (c.tickOn asked).requestStop := by
  -- Neither the batch nor what ends the run looks at requests again.
  have hr : c.requestStop.running = c.running := rfl
  have hb := c.batchStep_requestStop
  rcases hd : ({ c with tickPending := false } : Scheduler ε σ).batchStep with ⟨r, d⟩
  rw [hd] at hb
  simp only [tickOn, hb, hd]
  rw [hr]
  cases c.running with
  | false => rfl
  | true =>
      cases asked with
      | true => rfl
      | false =>
          rcases r with err | _ | _
          · rfl
          · change d.requestStop.reportHalt.stop = d.reportHalt.stop.requestStop
            rw [reportHalt_eq, reportHalt_eq]
            rfl
          · change d.requestStop.schedule = d.schedule.requestStop
            have hp : d.requestStop.tickPending = d.tickPending := rfl
            simp only [schedule, hp]
            split <;> rfl

structure Abides (c d : Scheduler ε σ) : Prop where
  stopRequested_eq : d.stopRequested = c.stopRequested
  running : d.running = true → c.running = true

omit [Engine ε] [Storage σ] in
theorem Abides.trans {c d e : Scheduler ε σ} (h : Abides c d) (h' : Abides d e) : Abides c e :=
  ⟨h'.stopRequested_eq.trans h.stopRequested_eq, fun he => h.running (h'.running he)⟩

theorem abides_tick (c : Scheduler ε σ) : Abides c c.tick := by
  have ht := ticked_tick c
  generalize c.tick = d at ht
  cases ht with
  | idle hr => exact ⟨rfl, id⟩
  | stopped hr hs => exact ⟨rfl, fun _ => hr⟩
  | failed hr hs hc => exact ⟨rfl, fun _ => hr⟩
  | halted hr hs hc hh => exact ⟨rfl, fun _ => hr⟩
  | underway hr hs hc hh hn => exact ⟨rfl, fun _ => hr⟩

theorem abides_driveFrom (c : Scheduler ε σ) (k limit : Nat) : Abides c (driveFrom k limit c).2 := by
  induction limit generalizing c k with
  | zero => exact ⟨rfl, id⟩
  | succ limit ih =>
      simp only [driveFrom, takeTick?]
      cases c.ticks.take? with
      | none => exact ⟨rfl, id⟩
      | some ticks =>
          have ht : Abides c { c with ticks } := ⟨rfl, id⟩
          exact (ht.trans (abides_tick _)).trans (ih _ (k + 1))

theorem abides_ticksOf {c d : Scheduler ε σ} {limit : Nat} (hd : d ∈ ticksOf limit c) : Abides c d := by
  induction limit generalizing c with
  | zero => cases hd
  | succ limit ih =>
      simp only [ticksOf, takeTick?] at hd
      cases ht : c.ticks.take? with
      | none => simp [ht] at hd
      | some ticks =>
          have hc : Abides c { c with ticks } := ⟨rfl, id⟩
          simp only [ht, Option.map_some, List.mem_cons] at hd
          rcases hd with rfl | hd
          · exact hc
          · exact (hc.trans (abides_tick _)).trans (ih hd)

end Scheduler

namespace Session

variable {ε σ : Type} [Engine ε] [Storage σ]

def begins (s : Session ε σ) (op : Op) : Bool :=
  !s.scheduler.running && (s.apply op).scheduler.running

def begun (s : Session ε σ) (ops : List Op) : List Op :=
  s.along (fun s op => if s.begins op then [op] else []) ops

def StopAsked (s : Session ε σ) (ops : List Op) : Prop :=
  ∃ before after, ops = before ++ .requestStop :: after ∧
    (s.run (before ++ [.requestStop])).begun after = []

theorem begun_cons (s : Session ε σ) (op : Op) (ops : List Op) :
    s.begun (op :: ops) = [] ↔ s.begins op = false ∧ (s.apply op).begun ops = [] := by
  simp only [begun, along, List.append_eq_nil_iff]
  cases s.begins op <;> simp

theorem stopAsked_cons (s : Session ε σ) (op : Op) (ops : List Op) :
    s.StopAsked (op :: ops) ↔
      (op = .requestStop ∧ (s.apply op).begun ops = []) ∨ (s.apply op).StopAsked ops := by
  constructor
  · rintro ⟨before, after, he, hb⟩
    cases before with
    | nil =>
        obtain ⟨rfl, rfl⟩ := List.cons.inj he
        exact .inl ⟨rfl, hb⟩
    | cons first before =>
        obtain ⟨rfl, rfl⟩ := List.cons.inj he
        exact .inr ⟨before, after, rfl, hb⟩
  · rintro (⟨rfl, hb⟩ | ⟨before, after, rfl, hb⟩)
    · exact ⟨[], ops, rfl, hb⟩
    · exact ⟨op :: before, after, rfl, hb⟩

def Heeds (s : Session ε σ) (op : Op) : Prop :=
  (s.apply op).scheduler.stopRequested = true ↔
    op = .requestStop ∨ (s.begins op = false ∧ s.scheduler.stopRequested = true)

theorem heeds_of_abides {s : Session ε σ} {op : Op} (ho : op ≠ .requestStop)
    (h : Scheduler.Abides s.scheduler (s.apply op).scheduler) : s.Heeds op := by
  have hb : s.begins op = false := by
    simp only [begins]
    cases hr : (s.apply op).scheduler.running with
    | false => simp
    | true => simp [h.running hr]
  simp only [Heeds, ho, hb, h.stopRequested_eq, false_or, true_and]

theorem heeds_of_start {s t : Session ε σ} {op : Op} (ho : op ≠ .requestStop)
    (h : s.apply op = t.start) (ht : t.scheduler.running = s.scheduler.running)
    (hs : t.scheduler.stopRequested = s.scheduler.stopRequested) : s.Heeds op := by
  have hrun := t.scheduler.running_start
  have hstop := t.scheduler.stopRequested_start
  rw [ht, hs] at hstop
  simp only [Heeds, begins, h, start, hrun, hstop, ho]
  cases s.scheduler.running <;> simp

theorem heeds_runTo {s : Session ε σ} {op : Op} {a : Address} (ho : op ≠ .requestStop)
    (h : s.apply op = (s.runTo a).2) : s.Heeds op := by
  obtain ⟨store, hr | hr⟩ := s.exists_runTo a
  · refine heeds_of_abides ho ?_
    rw [h, hr]
    exact ⟨rfl, id⟩
  · exact heeds_of_start ho (h.trans hr) rfl rfl

theorem heeds_addByName {s : Session ε σ} {op : Op} {name : String} (ho : op ≠ .requestStop)
    (h : s.apply op = (s.addByName name).2) : s.Heeds op := by
  obtain ⟨store, hr⟩ := s.exists_addByName name
  refine heeds_of_abides ho ?_
  rw [h, hr]
  exact ⟨rfl, id⟩

theorem heeds_apply (s : Session ε σ) (op : Op) : s.Heeds op := by
  cases op with
  | start => exact heeds_of_start (by simp) rfl rfl rfl
  | stop => exact heeds_of_abides (by simp) ⟨rfl, fun h => by cases h⟩
  | tick => exact heeds_of_abides (by simp) s.scheduler.abides_tick
  | turn =>
      have hd := s.scheduler.abides_driveFrom 0 1
      refine heeds_of_abides (by simp) ?_
      rwa [show s.apply .turn = (s.driveFor 1).2 from s.driveFor_one.symm]
  | drive limit => exact heeds_of_abides (by simp) (s.scheduler.abides_driveFrom 0 limit)
  | runTo a => exact heeds_runTo (by simp) rfl
  | requestStop => simp [Heeds, apply, requestStop, Scheduler.requestStop]
  | addByName name => exact heeds_addByName (by simp) rfl
  | request r =>
      cases r with
      | start => exact heeds_of_start (by simp) rfl rfl rfl
      | stop => exact heeds_of_abides (by simp) ⟨rfl, fun h => by cases h⟩
      | runTo a => exact heeds_runTo (by simp) rfl
      | addBreakByName name => exact heeds_addByName (by simp) rfl
      | _ => exact heeds_of_abides (by simp) ⟨rfl, id⟩
  | _ => exact heeds_of_abides (by simp) ⟨rfl, id⟩

theorem stopRequested_run (s : Session ε σ) (ops : List Op) :
    (s.run ops).scheduler.stopRequested = true ↔
      s.StopAsked ops ∨ (s.begun ops = [] ∧ s.scheduler.stopRequested = true) := by
  -- A request that the first operation leaves is one that was there before the others.
  induction ops generalizing s with
  | nil =>
      have hn : ¬ s.StopAsked [] := by
        rintro ⟨before, after, he, -⟩
        simp at he
      simp only [hn, false_or]
      exact (and_iff_right rfl).symm
  | cons op ops ih =>
      have ho : s.Heeds op := s.heeds_apply op
      have hi := ih (s.apply op)
      rw [Heeds] at ho
      rw [stopAsked_cons, begun_cons]
      rw [ho] at hi
      change ((s.apply op).run ops).scheduler.stopRequested = true ↔ _
      tauto

theorem stopRequested_ticksOf {s : Session ε σ} {op : Op} {c : Scheduler ε σ} (h : c ∈ s.ticksOf op) :
    c.stopRequested = s.scheduler.stopRequested := by
  cases op with
  | tick => rw [List.mem_singleton.mp h]
  | turn => exact (Scheduler.abides_ticksOf h).stopRequested_eq
  | drive limit => exact (Scheduler.abides_ticksOf h).stopRequested_eq
  | _ => cases h

theorem driveFrom_eq_run_turn (s : Session ε σ) (k limit : Nat) :
    { s with scheduler := (Scheduler.driveFrom k limit s.scheduler).2 } =
      s.run (List.replicate limit .turn) := by
  induction limit generalizing s k with
  | zero => rfl
  | succ limit ih =>
      change _ = s.turn.run (List.replicate limit .turn)
      rw [driveFrom_succ, ← ih s.turn (k + 1)]
      cases ht : s.scheduler.takeTick? with
      | none =>
          have hs : s.turn = s := by simp [turn, ht]
          have hd : (Scheduler.driveFrom (k + 1) limit s.scheduler).2 = s.scheduler := by
            cases limit <;> simp [Scheduler.driveFrom, ht]
          rw [hs, hd]
      | some c =>
          have hl : s.turn.labels = s.labels := by simp [turn, ht]
          rw [hl]

structure HonoursStops (s : Session ε σ) (ops : List Op) : Prop where
  ends : s.StopAsked ops → ∀ op, ∀ c ∈ (s.run ops).ticksOf op,
    c.tickBlocks = [] ∧ c.tick = { c with tickPending := false, running := false }
  only : ¬ s.StopAsked ops → ∀ op, ∀ c ∈ (s.run ops).ticksOf op, c.running = true →
    (∃ armed limit, c.tickBlocks = [.batch armed limit]) ∧
      c.tick.engine = Engine.after c.tickBlocks c.engine
  midStart : let c := (s.run ops).scheduler
    c.running = false →
      c.start = Scheduler.enter { c with stopRequested := false } ∧
      (Scheduler.requestStop { c with stopRequested := false }).enter = c.start.requestStop
  midTick : ∀ op, ∀ c ∈ (s.run ops).ticksOf op,
    c.tick = c.tickOn c.stopRequested ∧ c.requestStop.tickOn c.stopRequested = c.tick.requestStop
  midDrive : ∀ limit, (s.run ops).apply (.drive limit) = (s.run ops).run (List.replicate limit .turn)

/-- A request to stop that no later run follows is honoured by the next tick, whatever else is done
before it; otherwise every tick of a run executes its batch. A request in the middle of a start or of a
tick is one that comes right after it, and a drive is a number of turns. -/
theorem honoursStops_run (e : ε) (key : String) (given : List (Address × String)) (storage : σ)
    (ticks : TickRequests) (config : SchedulerConfig) (w : Stopwatch) (ops : List Op) :
    (create e key given storage ticks config w).HonoursStops ops := by
  have hflag := (create e key given storage ticks config w).stopRequested_run ops
  rw [show (create e key given storage ticks config w).scheduler.stopRequested = false from rfl] at hflag
  simp only [Bool.false_eq_true, and_false, or_false] at hflag
  constructor
  case ends =>
    intro hasked op c hc
    have hs : c.stopRequested = true := (stopRequested_ticksOf hc).trans (hflag.mpr hasked)
    exact ⟨by simp [Scheduler.tickBlocks, hs], Scheduler.tick_eq_stop hs⟩
  case only =>
    intro hasked op c hc hr
    have hs : c.stopRequested = false := by
      rw [stopRequested_ticksOf hc]
      exact Bool.eq_false_iff.mpr fun h => hasked (hflag.mp h)
    have hb : c.tickBlocks = [.batch c.store.set.enabled c.throughput.stepSize.toNat] := by
      simp [Scheduler.tickBlocks, hr, hs]
    exact ⟨⟨_, _, hb⟩, c.engine_tick⟩
  case midStart =>
    intro c hr
    exact ⟨Scheduler.start_eq_enter hr, by rw [Scheduler.enter_requestStop, Scheduler.start_eq_enter hr]⟩
  case midTick =>
    intro op c _
    exact ⟨c.tick_eq_tickOn, c.tickOn_requestStop c.stopRequested⟩
  case midDrive => exact (run _ ops).driveFrom_eq_run_turn 0

theorem honoursStops_run_restarted :
    let s := create (Scripted.ofProgram #[10, 20, 30] [] 0 .empty) "p" [] MemoryStorage.empty .channel
      .standard .still
    let asked : List Op := [.requestStop, .start, .requestStop, .start, .step]
    let later : List Op := [.start, .requestStop, .stop, .start]
    s.StopAsked asked ∧
      ((s.run asked).ticksOf (.drive 2)).map (fun c => (c.running, c.tick.running)) = [(true, false)] ∧
      ¬ s.StopAsked later ∧
      ((s.run later).ticksOf .turn).map (fun c => (c.running, c.tickBlocks)) = [(true, [.batch [] 5000])] ∧
      s.HonoursStops asked ∧ s.HonoursStops later := by
  intro s asked later
  have h := honoursStops_run (Scripted.ofProgram #[10, 20, 30] [] 0 .empty) "p" []
    MemoryStorage.empty .channel .standard .still
  have hb : ((s.run later).ticksOf .turn).any (fun c => c.tickBlocks != []) = true := by decide +kernel
  refine ⟨⟨[.requestStop, .start], [.start, .step], rfl, by decide +kernel⟩, by decide +kernel,
    fun hs => ?_, by decide +kernel, h asked, h later⟩
  obtain ⟨c, hc, hn⟩ := List.any_eq_true.mp hb
  simp [((h later).ends hs .turn c hc).1] at hn

end Session

end RunControl
