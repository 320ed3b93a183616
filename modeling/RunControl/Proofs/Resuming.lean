import RunControl.Proofs.Meaning

namespace RunControl

namespace Scripted

theorem stuck_iff {e : Scripted} {s : BreakpointSet} (hp : e.position < e.program.size)
    (ha : s.isArmedAt e.instructionPointer = true) :
    e.Stuck s ↔ e.openBlocks.contains e.position = true :=
  ⟨fun h => h.2.2, fun h => ⟨hp, ha, h⟩⟩

theorem runFrom_of_not_stuck {e : Scripted} {s : BreakpointSet} (hp : e.position < e.program.size)
    (ha : s.isArmedAt e.instructionPointer = true) (hs : ¬ e.Stuck s) :
    e.runFrom s = e.position + 1 := by
  rw [stuck_iff hp ha, Bool.not_eq_true] at hs
  rw [runFrom, if_pos ⟨hp, ha, hs⟩]

end Scripted

namespace Scheduler

variable {σ : Type} [Storage σ] {c d : Scheduler Scripted σ} {q : Nat}

theorem RunMeaning.count_lt (h : RunMeaning c d q) (hp : c.engine.position < c.engine.program.size)
    (ha : c.store.set.isArmedAt c.engine.instructionPointer = true)
    (hs : ¬ c.engine.Stuck c.store.set) : c.engine.count < d.engine.count := by
  have hfrom := (h.endsAt.least hs).1.1
  rw [Scripted.runFrom_of_not_stuck hp ha hs] at hfrom
  rw [h.count_eq]
  omega

theorem RunMeaning.hit_of_stuck (h : RunMeaning c d q) (hs : c.engine.Stuck c.store.set) :
    d.lastHit ≠ .none ∧ d.engine.count = c.engine.count := by
  obtain ⟨rfl, -⟩ := h.endsAt.stuck hs
  have hip : d.engine.instructionPointer = c.engine.instructionPointer := h.pointer_eq
  refine ⟨?_, by rw [h.count_eq, Nat.sub_self, Nat.add_zero]⟩
  rw [h.hit_iff, hip]
  exact hs.2.1

end Scheduler

namespace Session

variable {σ : Type} [Storage σ]

theorem hit_again_iff {e : Scripted} (he : e.Reachable) (hr : e.registered = .empty) (key : String)
    (given : List (Address × String)) (storage : σ) {config : SchedulerConfig}
    (hc : DebuggerConfig.fault? config = none) (w : Stopwatch) (ops : List Op) :
    let s := (create e key given storage .channel config w).run ops
    let c := s.scheduler
    let d := s.start.drive.2.scheduler
    c.running = false → Storage.Accepts c.store.storage →
      c.engine.position < c.engine.program.size →
      c.store.set.isArmedAt c.engine.instructionPointer = true →
      ((d.lastHit ≠ .none ∧ d.engine.count = c.engine.count) ↔
        c.engine.openBlocks.contains c.engine.position = true) ∧
      (c.engine.openBlocks.contains c.engine.position = false → c.engine.count < d.engine.count) := by
  intro s c d hidle hw hp ha
  obtain ⟨q, hm⟩ : ∃ q, Scheduler.RunMeaning c d q :=
    Scheduler.runMeaning_drive_start hidle (chained_run e key given storage config w ops)
      (disarmed_run he hr key given storage .channel config w ops)
      (paced_run e key given storage .channel hc w ops) hw
  have hstuck := Scripted.stuck_iff hp ha
  refine ⟨⟨fun hhit => ?_, fun hk => hm.hit_of_stuck (hstuck.mpr hk)⟩, fun hk => ?_⟩
  · by_contra hk
    have hlt := hm.count_lt hp ha fun hs => hk (hstuck.mp hs)
    exact Nat.ne_of_gt hlt hhit.2
  · refine hm.count_lt hp ha fun hs => ?_
    rw [hstuck.mp hs] at hk
    cases hk

theorem hit_again_iff_once :
    let s := (create (.ofProgram #[16, 17, 18] [1] 0 .empty) "p" [] MemoryStorage.empty .channel .standard
      .still : Session Scripted MemoryStorage).run
        [.add (.standing 17), .start, .drive 3, .start, .drive 3]
    let c := s.scheduler
    let d := s.start.drive.2.scheduler
    (c.running = false ∧ c.engine.position < c.engine.program.size ∧
        c.store.set.isArmedAt c.engine.instructionPointer = true) ∧
      ((d.lastHit ≠ .none ∧ d.engine.count = c.engine.count) ↔
        c.engine.openBlocks.contains c.engine.position = true) ∧
      (c.engine.openBlocks.contains c.engine.position = false → c.engine.count < d.engine.count) := by
  have he : (Scripted.ofProgram #[16, 17, 18] [1] 0 .empty).Reachable := .ofProgram ..
  have hc : DebuggerConfig.fault? .standard = none := by decide +kernel
  have hs : let c := ((create (.ofProgram #[16, 17, 18] [1] 0 .empty) "p" [] MemoryStorage.empty .channel
      .standard .still : Session Scripted MemoryStorage).run
        [.add (.standing 17), .start, .drive 3, .start, .drive 3]).scheduler
    c.running = false ∧ c.engine.position < c.engine.program.size ∧
      c.store.set.isArmedAt c.engine.instructionPointer = true := by
    decide +kernel
  exact ⟨hs, hit_again_iff he rfl "p" [] MemoryStorage.empty hc .still
    [.add (.standing 17), .start, .drive 3, .start, .drive 3] hs.1 (MemoryStorage.accepts _) hs.2.1 hs.2.2⟩

theorem hit_again_in_place :
    let s := (create (.ofProgram #[16, 17, 18] [1] 0 .empty) "p" [] MemoryStorage.empty .channel .standard
      .still : Session Scripted MemoryStorage).run [.add (.standing 17), .start, .drive 3]
    (s.scheduler.running = false ∧ s.scheduler.engine.position < s.scheduler.engine.program.size ∧
        s.scheduler.store.set.isArmedAt s.scheduler.engine.instructionPointer = true) ∧
      s.start.drive.2.scheduler.lastHit = .persistent 17 ∧
      s.start.drive.2.scheduler.engine.count = s.scheduler.engine.count := by
  decide +kernel

end Session

end RunControl
