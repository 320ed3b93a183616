import RunControl.Proofs.Growth
import RunControl.Proofs.History

namespace RunControl

namespace Scheduler

variable {ε σ : Type}

structure Chained (c : Scheduler ε σ) : Prop where
  queue : ∃ n, c.ticks = .queue n true ∧ (c.tickPending = true → 0 < n)
  pending : c.running = true → c.tickPending = true
  unhit : c.running = true → c.lastHit = .none

theorem Chained.exists_waiting {c : Scheduler ε σ} (h : c.Chained) (hr : c.running = true) :
    ∃ n, c.ticks = .queue (n + 1) true := by
  obtain ⟨n, hn, hpos⟩ := h.queue
  have hlt := hpos (h.pending hr)
  exact ⟨n - 1, by rw [hn, Nat.sub_add_cancel hlt]⟩

structure Disarmed (c : Scheduler Scripted σ) : Prop where
  coherent : c.engine.Coherent
  clear : c.engine.registered = .empty

variable [Engine ε]

theorem chained_start {c : Scheduler ε σ} (h : c.Chained) : c.start.Chained := by
  cases hr : c.running with
  | true => rwa [start_eq_self hr]
  | false =>
      rw [start_of_idle hr]
      obtain ⟨n, hn, hp⟩ := h.queue
      refine ⟨?_, fun _ => rfl, fun _ => rfl⟩
      cases ht : c.tickPending with
      | true => exact ⟨n, hn, fun _ => hp ht⟩
      | false => exact ⟨n + 1, by simp [hn, TickRequests.request], fun _ => n.succ_pos⟩

theorem coherent_startEngine {c : Scheduler Scripted σ} (h : c.engine.Coherent) :
    c.startEngine.Coherent := by
  simp only [startEngine]
  split
  · exact h.unblock.unblock.run 1
  · exact h.unblock

theorem registered_startEngine {c : Scheduler Scripted σ} (h : c.Disarmed) :
    c.startEngine.registered = .empty := by
  have hu : c.engine.unblock.registered = .empty := by
    rw [Scripted.registered_unblock, h.clear]
  simp only [startEngine]
  split
  · show (c.engine.unblock.unblock.run 1).2.registered = _
    rw [Scripted.registered_run, Scripted.registered_unblock, hu]
  · exact hu

theorem coherent_start {c : Scheduler Scripted σ} (h : c.engine.Coherent) :
    c.start.engine.Coherent := by
  cases hr : c.running with
  | true => rwa [start_eq_self hr]
  | false =>
      rw [start_of_idle hr]
      exact coherent_startEngine h

theorem disarmed_start {c : Scheduler Scripted σ} (h : c.Disarmed) : c.start.Disarmed := by
  refine ⟨coherent_start h.coherent, ?_⟩
  cases hr : c.running with
  | true =>
      rw [start_eq_self hr]
      exact h.clear
  | false =>
      rw [start_of_idle hr]
      exact registered_startEngine h

theorem Disarmed.batchEnd {c : Scheduler Scripted σ} (h : c.Disarmed) :
    c.batchEnd.2.Coherent ∧ c.batchEnd.2.registered = .empty :=
  ⟨h.coherent.batch c.store.set c.throughput.stepSize.toNat,
    Scripted.registered_batch h.clear c.store.set c.throughput.stepSize.toNat⟩

variable [Storage σ]

theorem chained_tick {c : Scheduler ε σ} (hq : ∃ n, c.ticks = .queue n true) :
    c.tick.Chained := by
  obtain ⟨n, hn⟩ := hq
  have ht := ticked_tick c
  generalize c.tick = d at ht
  cases ht with
  | idle hr => exact ⟨⟨n, hn, by simp⟩, by simp [hr], by simp [hr]⟩
  | stopped hr hs => exact ⟨⟨n, hn, by simp⟩, by simp, by simp⟩
  | failed hr hs hc => exact ⟨⟨n, hn, by simp [batched]⟩, by simp, by simp⟩
  | halted hr hs hc hh => exact ⟨⟨n, hn, by simp [examined, batched]⟩, by simp, by simp⟩
  | underway hr hs hc hh hb =>
      exact ⟨⟨n + 1, by simp [hn, TickRequests.request], fun _ => n.succ_pos⟩, fun _ => rfl,
        fun _ => (Arming.checkHit_unstopped hc hh).1⟩

theorem coherent_tick {c : Scheduler Scripted σ} (h : c.engine.Coherent) :
    c.tick.engine.Coherent := by
  obtain ⟨he, -⟩ | ⟨he, -⟩ := c.kept_or_batched
  · rwa [he]
  · rw [he]
    exact h.batch c.store.set c.throughput.stepSize.toNat

theorem disarmed_tick {c : Scheduler Scripted σ} (h : c.Disarmed) : c.tick.Disarmed := by
  refine ⟨coherent_tick h.coherent, ?_⟩
  obtain ⟨he, -⟩ | ⟨he, -⟩ := c.kept_or_batched
  · rw [he]
    exact h.clear
  · rw [he]
    exact h.batchEnd.2

theorem paced_tick {c : Scheduler ε σ} (h : c.throughput.Paced) : c.tick.throughput.Paced := by
  obtain ⟨-, -, ht⟩ | ⟨-, -, ht⟩ := c.kept_or_batched
  · rwa [ht]
  · rw [ht]
    exact h.record _ _

end Scheduler

namespace Session

variable {ε σ : Type} [Engine ε] [Storage σ]

theorem kept_chained : Kept fun s : Session ε σ => s.scheduler.Chained where
  start h := Scheduler.chained_start h
  stop h := ⟨h.queue, fun hr => absurd hr (by simp [stop, Scheduler.stop]),
    fun hr => absurd hr (by simp [stop, Scheduler.stop])⟩
  step h := ⟨h.queue, h.pending, h.unhit⟩
  tick h := Scheduler.chained_tick (h.queue.imp fun _ hn => hn.1)
  turn {s} h := by
    rcases turn_cases s with ht | ⟨ticks, hq, ht⟩
    · rwa [ht]
    · rw [ht]
      obtain ⟨n, hn, -⟩ := h.queue
      rw [hn] at hq
      cases n with
      | zero => simp [TickRequests.take?] at hq
      | succ n => exact Scheduler.chained_tick ⟨n, (Option.some.inj hq).symm⟩
  requestStop h := ⟨h.queue, h.pending, h.unhit⟩
  add _ h := ⟨h.queue, h.pending, h.unhit⟩
  remove _ h := ⟨h.queue, h.pending, h.unhit⟩
  toggle _ h := ⟨h.queue, h.pending, h.unhit⟩

theorem kept_coherent : Kept fun s : Session Scripted σ => s.scheduler.engine.Coherent where
  start h := Scheduler.coherent_start h
  stop h := h
  step h := h.unblock.run 1
  tick h := Scheduler.coherent_tick h
  turn {s} h := turn_of_tick (P := fun s => Scripted.Coherent s.scheduler.engine) h fun ticks =>
    Scheduler.coherent_tick (c := { s.scheduler with ticks }) h
  requestStop h := h
  add _ h := h
  remove _ h := h
  toggle _ h := h

theorem kept_disarmed : Kept fun s : Session Scripted σ => s.scheduler.Disarmed where
  start h := Scheduler.disarmed_start h
  stop h := ⟨h.coherent, h.clear⟩
  step {s} h := by
    have hu := h.coherent.unblock
    refine ⟨hu.run 1, ?_⟩
    show (s.scheduler.engine.unblock.run 1).2.registered = _
    rw [Scripted.registered_run, Scripted.registered_unblock, h.clear]
  tick h := Scheduler.disarmed_tick h
  turn h := turn_of_tick (P := fun s => s.scheduler.Disarmed) h fun _ =>
    Scheduler.disarmed_tick ⟨h.coherent, h.clear⟩
  requestStop h := ⟨h.coherent, h.clear⟩
  add _ h := ⟨h.coherent, h.clear⟩
  remove _ h := ⟨h.coherent, h.clear⟩
  toggle _ h := ⟨h.coherent, h.clear⟩

theorem kept_paced : Kept fun s : Session ε σ => s.scheduler.throughput.Paced where
  start {s} h := by
    cases hr : s.scheduler.running with
    | true => rwa [start, Scheduler.start_eq_self hr]
    | false =>
        rw [start, Scheduler.start_of_idle hr]
        exact h
  stop h := h
  step h := h
  tick h := Scheduler.paced_tick h
  turn h := turn_of_tick (P := fun s => s.scheduler.throughput.Paced) h fun _ => Scheduler.paced_tick h
  requestStop h := h
  add _ h := h
  remove _ h := h
  toggle _ h := h

theorem chained_run (e : ε) (key : String) (given : List (Address × String)) (storage : σ)
    (config : SchedulerConfig) (w : Stopwatch) (ops : List Op) :
    ((create e key given storage .channel config w).run ops).scheduler.Chained :=
  kept_chained.run (s := create e key given storage .channel config w) ⟨⟨0, rfl, nofun⟩, nofun, nofun⟩ ops

theorem paced_run (e : ε) (key : String) (given : List (Address × String)) (storage : σ)
    (ticks : TickRequests) {config : SchedulerConfig} (hc : DebuggerConfig.fault? config = none)
    (w : Stopwatch) (ops : List Op) :
    ((create e key given storage ticks config w).run ops).scheduler.throughput.Paced :=
  kept_paced.run (s := create e key given storage ticks config w) (Throughput.paced_ofConfig hc) ops

end Session

end RunControl
