import RunControl.Proofs.Bracketing

namespace RunControl

namespace Engine

variable {ε : Type} [Engine ε]

def report? (e : ε) : EngineCall → Option CpuState
  | .run limit => some (Engine.run e limit).1
  | _ => none

def reported : List EngineCall → ε → Option CpuState
  | [], _ => none
  | c :: cs, e => (reported cs (perform e c)).or (report? e c)

def heard (blocks : List Block) (e : ε) : Option CpuState :=
  reported (blocks.flatMap Block.calls) e

theorem reported_append (cs ds : List EngineCall) (e : ε) :
    reported (cs ++ ds) e = (reported ds (cs.foldl perform e)).or (reported cs e) := by
  induction cs generalizing e with
  | nil => exact (Option.or_none).symm
  | cons c cs ih =>
      simp only [List.cons_append, reported, ih, List.foldl_cons]
      exact Option.or_assoc

theorem heard_append (bs cs : List Block) (e : ε) :
    heard (bs ++ cs) e = (heard cs (after bs e)).or (heard bs e) := by
  simp only [heard, List.flatMap_append, reported_append]
  rfl

theorem reported_of_no_run {cs : List EngineCall} (h : ∀ c ∈ cs, ∀ e : ε, report? e c = none) (e : ε) :
    reported cs e = none := by
  induction cs generalizing e with
  | nil => rfl
  | cons c cs ih =>
      rw [reported, ih fun d hd => h d (List.mem_cons_of_mem c hd)]
      exact h c List.mem_cons_self e

theorem heard_batch (armed : List Address) (limit : Nat) (e : ε) :
    heard [.batch armed limit] e = some (batch armed limit e).1 := by
  have hclear : ∀ e : ε, reported (armed.map .clear) e = none := by
    refine reported_of_no_run fun c hc e => ?_
    obtain ⟨a, -, rfl⟩ := List.mem_map.mp hc
    rfl
  simp only [heard, List.flatMap_singleton, Block.calls, reported_append, reported, hclear,
    Option.none_or, report?, Option.some_or, List.foldl_map]
  rfl

end Engine

def CpuState.tidings : CpuState → List HostEvent
  | .exit code => [.exit code]
  | .error message => [.error message]
  | _ => []

theorem CpuState.tidings_of_isRunning {state : CpuState} (h : state.isRunning = true) :
    state.tidings = [] := by
  cases state with
  | running => rfl
  | _ => cases h

def Store.stuckAt? {σ : Type} [Storage σ] (s : Store σ) (a : Address) : Option StorageFault :=
  if (s.set.at? a).any fun b => b.isEnabled && b.oneShot then
    match (Storage.set s.storage s.key (BreakpointSet.text (s.set.erase a))).1 with
    | .error fault => some fault
    | .ok () => none
  else none

namespace Arming

variable {ε σ : Type} [Engine ε] [Storage σ]

theorem stuckAt?_of_error {s t : Store σ} {e : ε} {host told : HostLog} {err : Error}
    (h : checkHit s e host = (.error err, t, told)) :
    told = host ∧ ∃ fault, s.stuckAt? (Engine.instructionPointer e) = some fault ∧
      err = .storage fault := by
  obtain ⟨b, hb, he⟩ := exists_of_isArmedAt (isArmedAt_of_checkHit_error (by rw [h]))
  cases ho : b.oneShot with
  | false =>
      rw [checkHit_of_standing host hb he ho] at h
      cases h
  | true =>
      rw [checkHit_of_single host hb he ho, Store.commit_eq] at h
      rcases hw : Storage.set s.storage s.key
        (BreakpointSet.text (s.set.erase (Engine.instructionPointer e))) with ⟨fault | u, storage⟩
      · rw [hw] at h
        cases h
        exact ⟨rfl, fault, by simp [Store.stuckAt?, hb, he, ho, hw], rfl⟩
      · rw [hw] at h
        cases h

theorem stuckAt?_of_ok {s t : Store σ} {e : ε} {host told : HostLog} {hit : Hit}
    (h : checkHit s e host = (.ok hit, t, told)) :
    s.stuckAt? (Engine.instructionPointer e) = none ∧
      (told = host ∨ told = host.push (.showTab breakpointsTab)) := by
  cases ha : s.set.isArmedAt (Engine.instructionPointer e) with
  | false =>
      rw [checkHit_of_notArmed host ha] at h
      cases h
      have hn : (s.set.at? (Engine.instructionPointer e)).any
          (fun b => b.isEnabled && b.oneShot) = false := by
        simp only [BreakpointSet.isArmedAt] at ha
        cases hb : s.set.at? (Engine.instructionPointer e) with
        | none => rfl
        | some b =>
            rw [hb, Option.any_some] at ha
            simp [ha]
      exact ⟨by simp only [Store.stuckAt?, hn]; rfl, .inl rfl⟩
  | true =>
      obtain ⟨b, hb, he⟩ := exists_of_isArmedAt ha
      cases ho : b.oneShot with
      | false =>
          rw [checkHit_of_standing host hb he ho] at h
          cases h
          exact ⟨by simp [Store.stuckAt?, hb, ho], .inr rfl⟩
      | true =>
          rw [checkHit_of_single host hb he ho, Store.commit_eq] at h
          rcases hw : Storage.set s.storage s.key
            (BreakpointSet.text (s.set.erase (Engine.instructionPointer e))) with ⟨fault | u, storage⟩
          · rw [hw] at h
            cases h
          · rw [hw] at h
            cases h
            exact ⟨by simp [Store.stuckAt?, hb, he, ho, hw], .inl rfl⟩

end Arming

namespace Scheduler

variable {ε σ : Type}

theorem toList_haltTold (state : CpuState) (host : HostLog) :
    (haltTold (some state) host).toList = host.toList ++ state.tidings := by
  cases state <;> simp [haltTold, CpuState.tidings]

variable [Engine ε]

theorem lastState_start (c : Scheduler ε σ) :
    c.start.lastState = (Engine.heard c.startBlocks c.engine).or c.lastState := by
  cases hr : c.running with
  | true =>
      rw [start_eq_self hr, startBlocks, hr]
      rfl
  | false =>
      rw [start_of_idle hr, startBlocks, hr]
      simp only [startState, Bool.false_eq_true, if_false]
      split <;> rfl

theorem heard_tickBlocks {c : Scheduler ε σ} (hr : c.running = true) (hs : c.stopRequested = false) :
    Engine.heard c.tickBlocks c.engine = some c.batchEnd.1 := by
  simp only [tickBlocks, hr, hs]
  exact Engine.heard_batch _ _ c.engine

variable [Storage σ]

def stuck? (c : Scheduler ε σ) : Option StorageFault :=
  if c.running && !c.stopRequested then c.store.stuckAt? (Engine.instructionPointer c.batchEnd.2)
  else none

theorem stuck?_of_running {c : Scheduler ε σ} (hr : c.running = true) (hs : c.stopRequested = false) :
    c.stuck? = c.store.stuckAt? (Engine.instructionPointer c.batchEnd.2) := by
  simp only [stuck?, hr, hs]
  rfl

structure Informs (c d : Scheduler ε σ) (state : CpuState) : Prop where
  heard : Engine.heard c.tickBlocks c.engine = some state
  settled : c.stuck? = none → d.lastState = some state ∧
    ∃ shown : List HostEvent, d.host.toList = c.host.toList ++ shown ++ state.tidings
  stuck : ∀ fault, c.stuck? = some fault → d.lastState = c.lastState ∧
    d.host.toList = c.host.toList ++ [.error (Error.storage fault).message]

theorem informs_tick {c : Scheduler ε σ} (hr : c.running = true) (hs : c.stopRequested = false) :
    Informs c c.tick c.batchEnd.1 := by
  have hstuck := stuck?_of_running hr hs
  have ht := ticked_tick c
  generalize c.tick = d at ht
  cases ht with
  | idle hi => exact absurd (hr.symm.trans hi) (by simp)
  | stopped _ hq => exact absurd (hq.symm.trans hs) (by simp)
  | failed _ _ hc =>
      obtain ⟨rfl, fault, hf, rfl⟩ := Arming.stuckAt?_of_error hc
      refine ⟨heard_tickBlocks hr hs, fun hn => ?_, fun fault' hf' => ?_⟩
      · rw [hstuck, hf] at hn
        cases hn
      · rw [hstuck, hf] at hf'
        cases hf'
        exact ⟨rfl, Array.toList_push⟩
  | @halted _ _ hit store host hc _ =>
      obtain ⟨hn, hshown⟩ := Arming.stuckAt?_of_ok hc
      refine ⟨heard_tickBlocks hr hs, fun _ => ⟨rfl, ?_⟩, fun fault hf => ?_⟩
      · rcases hshown with rfl | rfl
        · exact ⟨[], by rw [List.append_nil]; exact toList_haltTold _ _⟩
        · exact ⟨[.showTab breakpointsTab], by rw [← Array.toList_push]; exact toList_haltTold _ _⟩
      · rw [hstuck, hn] at hf
        cases hf
  | @underway _ _ hit store host hc hh hb =>
      obtain ⟨hn, -⟩ := Arming.stuckAt?_of_ok hc
      obtain ⟨-, -, rfl⟩ := Arming.checkHit_unstopped hc hh
      refine ⟨heard_tickBlocks hr hs, fun _ => ⟨rfl, [], ?_⟩, fun fault hf => ?_⟩
      · rw [CpuState.tidings_of_isRunning hb, List.append_nil, List.append_nil]
        rfl
      · rw [hstuck, hn] at hf
        cases hf

theorem lastState_tick {c : Scheduler ε σ} (h : c.stuck? = none) :
    c.tick.lastState = (Engine.heard c.tickBlocks c.engine).or c.lastState := by
  cases hr : c.running with
  | false =>
      rw [tick_eq_idle hr, tickBlocks, hr]
      rfl
  | true =>
      cases hs : c.stopRequested with
      | true =>
          rw [tick_eq_stop hs, tickBlocks, hr, hs]
          rfl
      | false =>
          have hi := informs_tick hr hs
          rw [hi.heard, (hi.settled h).1]
          rfl

theorem lastState_driveFrom {c : Scheduler ε σ} {k limit : Nat}
    (h : ∀ d ∈ ticksOf limit c, d.stuck? = none) :
    (driveFrom k limit c).2.lastState =
      (Engine.heard ((ticksOf limit c).flatMap tickBlocks) c.engine).or c.lastState := by
  induction limit generalizing c k with
  | zero => rfl
  | succ limit ih =>
      simp only [driveFrom, ticksOf, takeTick?] at h ⊢
      cases ht : c.ticks.take? with
      | none => rfl
      | some ticks =>
          simp only [ht, Option.map_some, List.mem_cons, forall_eq_or_imp] at h ⊢
          rw [ih h.2, lastState_tick h.1, engine_tick, List.flatMap_cons, Engine.heard_append]
          exact Option.or_assoc.symm

end Scheduler

namespace Session

variable {ε σ : Type} [Engine ε] [Storage σ]

theorem lastState_runTo (s : Session ε σ) (a : Address) :
    (s.runTo a).2.scheduler.lastState =
      (Engine.heard (s.runToBlocks a) s.scheduler.engine).or s.scheduler.lastState := by
  obtain ⟨store, ⟨hr, hb⟩ | ⟨hr, hb⟩⟩ := s.runTo_blocks a
  · rw [hr, hb]
    rfl
  · rw [hr, hb]
    exact Scheduler.lastState_start { s.scheduler with store }

omit [Engine ε] in
theorem lastState_addByName (s : Session ε σ) (name : String) :
    (s.addByName name).2.scheduler.lastState = s.scheduler.lastState := by
  obtain ⟨store, h⟩ := s.exists_addByName name
  rw [h]

theorem lastState_apply {s : Session ε σ} {op : Op} (h : ∀ c ∈ s.ticksOf op, c.stuck? = none) :
    (s.apply op).scheduler.lastState =
      (Engine.heard (s.asked op) s.scheduler.engine).or s.scheduler.lastState := by
  cases op with
  | start => exact s.scheduler.lastState_start
  | tick =>
      have ht := Scheduler.lastState_tick (h s.scheduler List.mem_cons_self)
      simp only [asked, ticksOf, List.flatMap_singleton]
      exact ht
  | turn =>
      rw [show s.apply .turn = (s.driveFor 1).2 from s.driveFor_one.symm]
      exact Scheduler.lastState_driveFrom (k := 0) h
  | drive limit => exact Scheduler.lastState_driveFrom (k := 0) h
  | runTo a => exact s.lastState_runTo a
  | addByName name => exact s.lastState_addByName name
  | request r =>
      cases r with
      | start => exact s.scheduler.lastState_start
      | runTo a => exact s.lastState_runTo a
      | addBreakByName name => exact s.lastState_addByName name
      | _ => rfl
  | _ => rfl

theorem lastState_run {s : Session ε σ} {ops : List Op} (h : ∀ c ∈ s.along ticksOf ops, c.stuck? = none) :
    (s.run ops).scheduler.lastState =
      (Engine.heard (s.along asked ops) s.scheduler.engine).or s.scheduler.lastState := by
  induction ops generalizing s with
  | nil => rfl
  | cons op ops ih =>
      simp only [along, List.mem_append] at h ⊢
      have hi := ih fun c hc => h c (.inr hc)
      rw [engine_apply, lastState_apply fun c hc => h c (.inl hc)] at hi
      rw [Engine.heard_append, Option.or_assoc]
      exact hi

structure Informed (s : Session ε σ) (ops : List Op) : Prop where
  ticks : ∀ c ∈ s.along ticksOf ops, c.running = true → c.stopRequested = false →
    ∃ state, Scheduler.Informs c c.tick state
  step : let t := s.run ops
    t.step.2.scheduler.lastState = some t.step.1 ∧
      Engine.heard (t.asked .step) t.scheduler.engine = some t.step.1
  latest : (∀ c ∈ s.along ticksOf ops, c.stuck? = none) →
    (s.run ops).scheduler.lastState = Engine.heard (s.along asked ops) s.scheduler.engine

theorem informed_run (e : ε) (key : String) (given : List (Address × String)) (storage : σ)
    (ticks : TickRequests) (config : SchedulerConfig) (w : Stopwatch) (ops : List Op) :
    (create e key given storage ticks config w).Informed ops := by
  refine ⟨fun c _ hr hs => ⟨_, Scheduler.informs_tick hr hs⟩, ⟨rfl, rfl⟩, fun h => ?_⟩
  rw [lastState_run h]
  exact Option.or_none

theorem informed_run_refused :
    let s := create (Scripted.ofProgram #[16] [] 3 .empty) "p" [] (⟨.empty, 0, [2]⟩ : FlakyStorage)
      .channel .standard .still
    let ops : List Op := [.add (.single 17), .start, .turn, .start, .turn]
    (s.along ticksOf ops).map (fun c => (c.running, c.stopRequested, c.stuck?)) =
        [(true, false, some (.refused 2)), (true, false, none)] ∧
      s.Informed ops := by
  intro s ops
  exact ⟨by decide +kernel, informed_run (Scripted.ofProgram #[16] [] 3 .empty) "p" []
    (⟨.empty, 0, [2]⟩ : FlakyStorage) .channel .standard .still ops⟩

theorem exit_untold :
    let s := (create (.ofProgram #[16] [] 3 .empty) "p" [] (⟨.empty, 0, [2]⟩ : FlakyStorage) .channel
      .standard .still : Session Scripted FlakyStorage).run [.add (.single 17), .start]
    Engine.heard (s.asked .turn) s.scheduler.engine = some (.exit 3) ∧
      s.turn.scheduler.lastState = none ∧
      s.turn.scheduler.host = #[.error "Storage error: write 2 failed"] := by
  decide +kernel

end Session

end RunControl
