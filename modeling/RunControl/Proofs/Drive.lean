import RunControl.Proofs.Sound

namespace RunControl

namespace Scheduler

section Idle

variable {ε σ : Type}

theorem takeTick?_of_queue {c : Scheduler ε σ} {n : Nat} (h : c.ticks = .queue (n + 1) true) :
    c.takeTick? = some { c with ticks := .queue n true } := by
  simp [takeTick?, h, TickRequests.take?]

theorem takeTick?_of_empty {c : Scheduler ε σ} (h : c.ticks = .queue 0 true) :
    c.takeTick? = none := by
  simp [takeTick?, h, TickRequests.take?]

variable [Engine ε] [Storage σ]

theorem driveFrom_of_idle {c : Scheduler ε σ} {n limit : Nat} (h : c.running = false)
    (hq : c.ticks = .queue n true) (hl : n ≤ limit) (k : Nat) :
    (driveFrom k limit c).2 =
      { c with ticks := .queue 0 true, tickPending := c.tickPending && n == 0 } := by
  induction limit generalizing c n k with
  | zero =>
      have hn : n = 0 := by omega
      subst hn
      simp only [driveFrom, ← hq, beq_self_eq_true, Bool.and_true]
  | succ limit ih =>
      cases n with
      | zero =>
          simp only [driveFrom, takeTick?_of_empty hq, ← hq, beq_self_eq_true, Bool.and_true]
      | succ n =>
          have ht := tick_eq_idle (c := { c with ticks := .queue n true }) h
          have hi := ih (c := { c with ticks := .queue n true, tickPending := false }) h rfl
            (Nat.le_of_succ_le_succ hl) (k + 1)
          simp only [driveFrom, takeTick?_of_queue hq, ht, hi, Bool.false_and]
          simp

end Idle

variable {σ : Type}

def unpaced (c : Scheduler Scripted σ) : Scheduler Scripted σ :=
  { c with
    engine := c.engine.core
    throughput := .ofConfig .standard
    stopwatch := .still
    lastState := none }

def rested (c : Scheduler Scripted σ) : Scheduler Scripted σ :=
  { c with arming := .idle, running := false, tickPending := false, ticks := .queue 0 true }

structure Underway (c : Scheduler Scripted σ) : Prop where
  running : c.running = true
  unstopped : c.stopRequested = false
  unhit : c.lastHit = .none
  disarmed : c.Disarmed
  paced : c.throughput.Paced

theorem underway_start {c : Scheduler Scripted σ} (h : c.running = false) (hc : c.Chained)
    (hd : c.Disarmed) (hp : c.throughput.Paced) :
    c.start.Underway ∧ ∃ n, c.start.ticks = .queue (n + 1) true := by
  have hs := disarmed_start hd
  have hq := chained_start hc
  rw [start_of_idle h] at hs hq ⊢
  exact ⟨⟨rfl, rfl, rfl, hs, hp⟩, hq.exists_waiting rfl⟩

theorem haltTold_core {e : Scripted} (h : e.Coherent) (host : HostLog) :
    haltTold e.core.last host = haltTold e.last host := by
  have hm := h.not_failed
  obtain ⟨_, _, _, _, _, _, _, last, _, _, _⟩ := e
  rcases last with _ | _ | _ | _ | code | message
  case some.error => exact absurd rfl (hm message)
  all_goals rfl

theorem core_batchEnd {c : Scheduler Scripted σ} (h : c.Disarmed)
    (hs : c.batchEnd.1.isRunning = false ∨
      c.store.set.isArmedAt (Engine.instructionPointer c.batchEnd.2) = true) :
    c.batchEnd.2.core = c.engine.settle c.store.set :=
  Scripted.core_batch h.coherent h.clear _ _ hs

theorem haltTold_settle {c : Scheduler Scripted σ} (h : c.Disarmed)
    (he : c.batchEnd.2.core = c.engine.settle c.store.set) (host : HostLog) :
    haltTold (c.engine.settle c.store.set).last host = haltTold (some c.batchEnd.1) host := by
  have hl := Scripted.last_batch h.coherent h.clear c.store.set c.throughput.stepSize.toNat
  have hr : haltTold c.batchEnd.2.core.last host = haltTold c.batchEnd.2.last host :=
    haltTold_core h.batchEnd.1 host
  rw [← he, hr]
  exact congrArg (haltTold · host) hl

variable [Storage σ]

def settled (c : Scheduler Scripted σ) : Scheduler Scripted σ :=
  let e := c.engine.settle c.store.set
  match Arming.checkHit c.store e c.host with
  | (.error err, store, host) =>
      { c.rested with engine := e, store, host := host.push (.error err.message) }
  | (.ok hit, store, host) =>
      { c.rested with engine := e, store, lastHit := hit, host := haltTold e.last host }

theorem engine_settled (c : Scheduler Scripted σ) :
    c.settled.engine = c.engine.settle c.store.set := by
  simp only [settled]
  split <;> rfl

theorem idle_settled (c : Scheduler Scripted σ) : c.settled.running = false := by
  simp only [settled]
  split <;> rfl

theorem ticks_settled (c : Scheduler Scripted σ) : c.settled.ticks = .queue 0 true := by
  simp only [settled]
  split <;> rfl

theorem checkHit_batchEnd {c : Scheduler Scripted σ}
    (he : c.batchEnd.2.core = c.engine.settle c.store.set) :
    Arming.checkHit c.store (c.engine.settle c.store.set) c.host =
      Arming.checkHit c.store c.batchEnd.2 c.host := by
  rw [← he]
  exact Arming.checkHit_congr c.store c.host (Scripted.instructionPointer_core c.batchEnd.2)

structure Finished (c d : Scheduler Scripted σ) : Prop where
  running : d.running = false
  ticks : d.ticks = c.ticks
  pending : d.tickPending = false
  settled : ({ d with ticks := .queue 0 true } : Scheduler Scripted σ).unpaced = c.settled.unpaced

structure Nearer (c d : Scheduler Scripted σ) : Prop where
  underway : d.Underway
  ticks : d.ticks = c.ticks.request
  program : d.engine.program = c.engine.program
  position : c.engine.position < d.engine.position
  inside : d.engine.position < d.engine.program.size
  settled : d.settled.unpaced = c.settled.unpaced

theorem finished_or_nearer {c : Scheduler Scripted σ} (h : c.Underway) :
    Finished c c.tick ∨ Nearer c c.tick := by
  have ht := ticked_tick c
  generalize c.tick = d at ht
  cases ht with
  | idle hr => rw [h.running] at hr; cases hr
  | stopped hr hs => rw [h.unstopped] at hs; cases hs
  | @failed hr hs err store host hc =>
      have ha : c.store.set.isArmedAt (Engine.instructionPointer c.batchEnd.2) = true :=
        Arming.isArmedAt_of_checkHit_error (by rw [hc])
      have he := core_batchEnd h.disarmed (.inr ha)
      refine .inl ⟨rfl, rfl, rfl, ?_⟩
      simp only [settled, checkHit_batchEnd he, hc]
      simp only [unpaced, rested, batched, he, Scripted.core_settle]
  | @halted hr hs hit store host hc hh =>
      have hstop : c.batchEnd.1.isRunning = false ∨
          c.store.set.isArmedAt (Engine.instructionPointer c.batchEnd.2) = true := by
        rcases hh with hh | hh
        · refine .inr ?_
          rw [← hh]
          exact (Arming.stops_of_checkHit (by rw [hc])).symm
        · exact .inl hh
      have he := core_batchEnd h.disarmed hstop
      refine .inl ⟨rfl, rfl, rfl, ?_⟩
      simp only [settled, checkHit_batchEnd he, hc, haltTold_settle h.disarmed he]
      simp only [unpaced, rested, examined, batched, he, Scripted.core_settle]
  | @underway hr hs hit store host hc hh hb =>
      obtain ⟨rfl, rfl, rfl⟩ := Arming.checkHit_unstopped hc hh
      obtain ⟨hset, hpos, hlt, hprog⟩ := Scripted.settle_batch h.disarmed.coherent h.disarmed.clear
        c.store.set c.throughput.stepSize.toNat hb
      have hco := h.disarmed.batchEnd
      have hstep := h.paced.step
      refine .inr ⟨⟨hr, hs, rfl, ⟨hco.1, hco.2⟩, h.paced.record _ _⟩, rfl, hprog, ?_, ?_, ?_⟩
      · exact (Nat.lt_add_of_pos_right hstep).trans_eq hpos.symm
      · exact hlt.trans_eq (congrArg Array.size hprog.symm)
      · have he : c.batchEnd.2.settle c.store.set = c.engine.settle c.store.set := hset
        simp only [settled, examined, batched, he]
        rcases Arming.checkHit c.store (c.engine.settle c.store.set) c.host with
          ⟨err | hit, store, host⟩
        · simp only [unpaced, rested, h.unhit]
        · simp only [unpaced, rested]

theorem takeTick?_of_underway {c : Scheduler Scripted σ} (h : c.Underway) {n : Nat}
    (hq : c.ticks = .queue (n + 1) true) :
    ∃ d, c.takeTick? = some d ∧ d.Underway ∧ d.ticks = .queue n true ∧ d.engine = c.engine ∧
      d.settled = c.settled :=
  ⟨_, takeTick?_of_queue hq,
    ⟨h.running, h.unstopped, h.unhit, ⟨h.disarmed.coherent, h.disarmed.clear⟩, h.paced⟩, rfl, rfl, rfl⟩

theorem unpaced_driveFrom {c : Scheduler Scripted σ} (h : c.Underway) {n limit : Nat}
    (hq : c.ticks = .queue (n + 1) true)
    (hl : n + (c.engine.program.size - c.engine.position) < limit) (k : Nat) :
    (driveFrom k limit c).2.unpaced = c.settled.unpaced := by
  -- A tick that goes on puts a new one in the queue and moves the position, so the sum of what waits
  -- and what is left of the program goes down with the limit.
  induction limit generalizing c n k with
  | zero => omega
  | succ limit ih =>
      obtain ⟨d, htake, hu, hticks, he, hset⟩ := takeTick?_of_underway h hq
      simp only [driveFrom, htake]
      rw [← hset]
      rw [← he] at hl
      rcases finished_or_nearer hu with hf | hn
      · rw [driveFrom_of_idle hf.running (hf.ticks.trans hticks) (by omega), ← hf.settled,
          hf.pending, Bool.false_and, ← hf.pending]
      · have hpos := hn.position
        have hin := hn.inside
        have hprog : d.tick.engine.program.size = d.engine.program.size := by rw [hn.program]
        have hreq : d.tick.ticks = .queue (n + 1) true := by
          rw [hn.ticks, hticks]
          rfl
        rw [← hn.settled]
        exact ih hn.underway hreq (by omega) (k + 1)

theorem unpaced_drive {c : Scheduler Scripted σ} (h : c.Underway) (hq : ∃ n, c.ticks = .queue (n + 1) true) :
    c.drive.2.unpaced = c.settled.unpaced := by
  obtain ⟨n, hn⟩ := hq
  have hl : c.ticksLeft = n + 1 + (c.engine.program.size - c.engine.position + 1) := by
    simp only [ticksLeft, hn, TickRequests.waiting]
    rfl
  exact unpaced_driveFrom h hn (by omega) 0

theorem unpaced_drive_start {c : Scheduler Scripted σ} (h : c.running = false) (hc : c.Chained)
    (hd : c.Disarmed) (hp : c.throughput.Paced) :
    c.start.drive.2.unpaced = c.start.settled.unpaced :=
  have hu := underway_start h hc hd hp
  unpaced_drive hu.1 hu.2

end Scheduler

end RunControl
