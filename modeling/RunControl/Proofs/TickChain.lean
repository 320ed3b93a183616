import RunControl.Proofs.History

namespace RunControl

namespace Scheduler

variable {ε σ : Type}

structure OneChain (c : Scheduler ε σ) : Prop where
  ticks_eq : c.ticks = .queue (if c.tickPending then 1 else 0) true
  pending : c.running = true → c.tickPending = true

structure AtRest (c : Scheduler ε σ) : Prop where
  ticks_eq : c.ticks = .queue 0 true
  pending_eq : c.tickPending = false
  running_eq : c.running = false

theorem OneChain.atRest {c : Scheduler ε σ} (h : c.OneChain) (ht : c.takeTick? = none) : c.AtRest := by
  have hq := h.ticks_eq
  have hp := h.pending
  cases hpend : c.tickPending with
  | true =>
      rw [hpend] at hq
      simp [takeTick?, hq, TickRequests.take?] at ht
  | false =>
      rw [hpend] at hq hp
      exact ⟨hq, hpend, Bool.eq_false_of_not_eq_true fun hr => Bool.false_ne_true (hp hr)⟩

theorem OneChain.waiting_of_running {c : Scheduler ε σ} (h : c.OneChain) (hr : c.running = true) :
    c.ticks.waiting = 1 := by
  rw [h.ticks_eq, h.pending hr]
  rfl

theorem OneChain.of_take? {c : Scheduler ε σ} (h : c.OneChain) {ticks : TickRequests}
    (ht : c.ticks.take? = some ticks) : ticks = .queue 0 true := by
  rw [h.ticks_eq] at ht
  cases hp : c.tickPending with
  | true =>
      rw [hp] at ht
      exact (Option.some.inj ht).symm
  | false => simp [hp, TickRequests.take?] at ht

variable [Engine ε]

theorem oneChain_start {c : Scheduler ε σ} (h : c.OneChain) : c.start.OneChain := by
  cases hr : c.running with
  | true => rwa [start_eq_self hr]
  | false =>
      rw [start_of_idle hr]
      refine ⟨?_, fun _ => rfl⟩
      have hq := h.ticks_eq
      cases hp : c.tickPending with
      | true => simpa [hp] using hq
      | false => simp [hq, hp, TickRequests.request]

variable [Storage σ]

theorem oneChain_tick {c : Scheduler ε σ} (h : c.ticks = .queue 0 true) : c.tick.OneChain := by
  have ht := ticked_tick c
  generalize c.tick = d at ht
  cases ht with
  | idle hr => exact ⟨h, fun hn => absurd hn (by simp [hr])⟩
  | stopped hr hs => exact ⟨h, fun hn => absurd hn Bool.false_ne_true⟩
  | failed hr hs hc => exact ⟨h, fun hn => absurd hn Bool.false_ne_true⟩
  | halted hr hs hc hh => exact ⟨h, fun hn => absurd hn Bool.false_ne_true⟩
  | underway hr hs hc hh hn => exact ⟨congrArg TickRequests.request h, fun _ => rfl⟩

theorem takeTick?_driveFrom {c : Scheduler ε σ} {k limit : Nat}
    (h : (driveFrom k limit c).1 < k + limit) : (driveFrom k limit c).2.takeTick? = none := by
  induction limit generalizing c k with
  | zero => exact absurd h (Nat.lt_irrefl k)
  | succ limit ih =>
      rw [driveFrom] at h ⊢
      cases ht : c.takeTick? with
      | none => exact ht
      | some d =>
          simp only [ht] at h ⊢
          exact ih (by omega)

theorem driveFrom_le (c : Scheduler ε σ) (k limit : Nat) : (driveFrom k limit c).1 ≤ k + limit := by
  induction limit generalizing c k with
  | zero => exact le_refl k
  | succ limit ih =>
      rw [driveFrom]
      cases c.takeTick? with
      | none => exact Nat.le_add_right k _
      | some d =>
          have hi := ih d.tick (k + 1)
          show (driveFrom (k + 1) limit d.tick).1 ≤ _
          omega

theorem driveFrom_succ_of_takeTick? {c : Scheduler ε σ} {k limit : Nat}
    (h : (driveFrom k limit c).2.takeTick? = none) : driveFrom k (limit + 1) c = driveFrom k limit c := by
  induction limit generalizing c k with
  | zero => simp only [driveFrom, show c.takeTick? = none from h]
  | succ limit ih =>
      rw [driveFrom]
      rw [driveFrom] at h ⊢
      cases ht : c.takeTick? with
      | none => rfl
      | some d =>
          simp only [ht] at h
          exact ih h

theorem driveFrom_add_of_takeTick? {c : Scheduler ε σ} {k limit : Nat}
    (h : (driveFrom k limit c).2.takeTick? = none) (n : Nat) :
    driveFrom k (limit + n) c = driveFrom k limit c := by
  induction n with
  | zero => rfl
  | succ n ih => rw [← Nat.add_assoc, driveFrom_succ_of_takeTick? (by rw [ih, h]), ih]

end Scheduler

namespace Session

variable {ε σ : Type} [Engine ε] [Storage σ]

def DrivesTo (s t : Session ε σ) : Prop :=
  ∃ limit, (s.driveFor limit).1 < limit ∧ (s.driveFor limit).2 = t

theorem DrivesTo.takeTick? {s t : Session ε σ} (h : s.DrivesTo t) :
    t.scheduler.takeTick? = none := by
  obtain ⟨limit, hlt, rfl⟩ := h
  have h : (Scheduler.driveFrom 0 limit s.scheduler).1 < 0 + limit := by
    rw [Nat.zero_add]
    exact hlt
  exact Scheduler.takeTick?_driveFrom h

theorem DrivesTo.eq {s t u : Session ε σ} (ht : s.DrivesTo t) (hu : s.DrivesTo u) : t = u := by
  have hnt := ht.takeTick?
  have hnu := hu.takeTick?
  obtain ⟨m, -, rfl⟩ := ht
  obtain ⟨n, -, rfl⟩ := hu
  have hm := Scheduler.driveFrom_add_of_takeTick? (c := s.scheduler) (k := 0) hnt n
  have hn := Scheduler.driveFrom_add_of_takeTick? (c := s.scheduler) (k := 0) hnu m
  simp only [driveFor, Scheduler.driveFor]
  rw [← hm, ← hn, Nat.add_comm]

theorem drivesTo_of_takeTick? {s : Session ε σ} {limit : Nat}
    (h : (s.driveFor limit).2.scheduler.takeTick? = none) : s.DrivesTo (s.driveFor limit).2 := by
  have hd : s.driveFor (limit + 1) = s.driveFor limit := by
    have hf := Scheduler.driveFrom_succ_of_takeTick? (c := s.scheduler) (k := 0) h
    simp only [driveFor, Scheduler.driveFor, hf]
  have hle : (s.driveFor limit).1 ≤ 0 + limit := s.scheduler.driveFrom_le 0 limit
  refine ⟨limit + 1, ?_, by rw [hd]⟩
  rw [hd]
  omega

theorem keptInTurn_oneChain : KeptInTurn fun s : Session ε σ => s.scheduler.OneChain where
  start h := Scheduler.oneChain_start h
  stop h := ⟨h.ticks_eq, fun hr => absurd hr Bool.false_ne_true⟩
  step h := ⟨h.ticks_eq, h.pending⟩
  turn {s} h := by
    rcases turn_cases s with ht | ⟨ticks, hq, ht⟩
    · rwa [ht]
    · rw [ht]
      exact Scheduler.oneChain_tick (h.of_take? hq)
  requestStop h := ⟨h.ticks_eq, h.pending⟩
  add _ h := ⟨h.ticks_eq, h.pending⟩
  remove _ h := ⟨h.ticks_eq, h.pending⟩
  toggle _ h := ⟨h.ticks_eq, h.pending⟩

theorem OneChain.atRest_of_drivesTo {s t : Session ε σ} (h : s.scheduler.OneChain)
    (ht : s.DrivesTo t) : t.scheduler.AtRest := by
  have hn := ht.takeTick?
  obtain ⟨limit, -, rfl⟩ := ht
  have hd := keptInTurn_oneChain.driveFrom (s := s) h 0 limit
  exact Scheduler.OneChain.atRest hd hn

theorem oneChain_run (e : ε) (key : String) (given : List (Address × String)) (storage : σ)
    (config : SchedulerConfig) (w : Stopwatch) {ops : List Op} (ho : .tick ∉ ops) :
    let s := (create e key given storage .channel config w).run ops
    s.scheduler.OneChain ∧ (s.scheduler.running = true → s.scheduler.ticks.waiting = 1) ∧
      ∀ t, s.DrivesTo t → t.scheduler.AtRest := by
  intro s
  have h : s.scheduler.OneChain :=
    keptInTurn_oneChain.run (s := create e key given storage .channel config w) ⟨rfl, nofun⟩ ho
  exact ⟨h, h.waiting_of_running, fun t ht => OneChain.atRest_of_drivesTo h ht⟩

theorem oneChain_run_restarted :
    let ops : List Op := [.add (.standing 20), .start, .turn, .start, .stop, .start, .runTo 30]
    let s := (create (.ofProgram #[10, 20, 30] [] 0 .empty) "p" [] MemoryStorage.empty .channel
      .standard .still : Session Scripted MemoryStorage).run ops
    (.tick ∉ ops ∧ s.scheduler.running = true) ∧ s.scheduler.OneChain ∧
      (s.scheduler.running = true → s.scheduler.ticks.waiting = 1) ∧
      ∀ t, s.DrivesTo t → t.scheduler.AtRest := by
  intro ops s
  have ho : .tick ∉ ops := by decide
  have hr : s.scheduler.running = true := by decide +kernel
  have h := oneChain_run (.ofProgram #[10, 20, 30] [] 0 .empty : Scripted) "p" [] MemoryStorage.empty
    .standard .still ho
  exact ⟨⟨ho, hr⟩, h⟩

end Session

end RunControl
