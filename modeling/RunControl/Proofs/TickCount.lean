import RunControl.Proofs.Growth
import RunControl.Proofs.Meaning
import RunControl.Proofs.NoOverrun
import RunControl.Proofs.TickChain

namespace RunControl

namespace Scripted

structure Retires (limit : Nat) (e : Scripted) (state : CpuState) (e' : Scripted) : Prop where
  program_eq : e'.program = e.program
  position_le : e.position ≤ e'.position
  le_add : e'.position ≤ e.position + limit
  running : state.isRunning = true → e'.position = e.position + limit ∧ e'.position < e.program.size
  exit : ∀ code, state = .exit code → e'.position = e.program.size
  short : state.isRunning = false → (∀ code, state ≠ .exit code) → e'.position < e.position + limit

theorem stateAt_of_limit {e : Scripted} {limit q : Nat} (h : q = e.position + limit) :
    e.stateAt limit q = .exit e.exitCode ∨ e.stateAt limit q = .running := by
  by_cases hs : q = e.program.size
  · exact .inl (if_pos hs)
  · exact .inr (by simp only [stateAt, if_neg hs, if_pos h])

theorem Coherent.retires_run {e : Scripted} (h : e.Coherent) {limit : Nat} (hl : 0 < limit) :
    Retires limit e (e.run limit).1 (e.run limit).2 := by
  cases hx : e.exited with
  | true =>
      rw [h.run_of_exited hx]
      exact ⟨rfl, le_rfl, Nat.le_add_right _ _, fun hr => absurd hr Bool.false_ne_true,
        fun _ _ => (exited_of_position_eq h hx).1, fun _ hn => absurd rfl (hn e.exitCode)⟩
  | false =>
      cases hb : e.blocked with
      | true =>
          rw [h.run_of_blocked hx hb]
          exact ⟨rfl, le_rfl, Nat.le_add_right _ _, fun hr => absurd hr Bool.false_ne_true,
            nofun, fun _ _ => Nat.lt_add_of_pos_right hl⟩
      | false =>
          rw [h.run_of_free hx hb]
          have hge := e.le_restFrom e.position
          have hle := restFrom_le_size h.position_le
          generalize hq : min (e.position + limit) (e.restFrom e.position) = q
          change Retires limit e (e.stateAt limit q) (e.moveTo q _ _)
          refine ⟨rfl, (by omega : e.position ≤ q), (by omega : q ≤ _), fun hr => ?_, fun code hc => ?_,
            fun hr hn => ?_⟩
          · obtain ⟨hne, heq⟩ := stateAt_isRunning hr
            exact ⟨heq, (by omega : q < _)⟩
          · exact (stateAt_eq_exit hc).1
          · change q < e.position + limit
            by_contra hlt
            obtain hs | hs := @stateAt_of_limit e limit q (by omega)
            · exact hn _ hs
            · rw [hs] at hr
              exact Bool.false_ne_true hr.symm

theorem Coherent.retires_batch {e : Scripted} (h : e.Coherent) (s : BreakpointSet) {limit : Nat}
    (hl : 0 < limit) :
    Retires limit e (Engine.batch s.enabled limit e).1 (Engine.batch s.enabled limit e).2 := by
  have hr := (h.armed s).retires_run hl
  simp only [Engine.batch, foldl_register, foldl_clear]
  exact ⟨hr.program_eq, hr.position_le, hr.le_add, hr.running, hr.exit, hr.short⟩

end Scripted

theorem ceil_div_of_rest {full rest size : Nat} (hpos : 0 < size) (hle : rest ≤ size)
    (hrest : 0 < full → 0 < rest) : full + 1 = max 1 ((full * size + rest + size - 1) / size) := by
  have hsplit : full * size + rest + size - 1 = rest + size - 1 + full * size := by omega
  rw [hsplit, Nat.add_mul_div_right _ _ hpos]
  obtain rfl | hne := Nat.eq_zero_or_pos rest
  · obtain rfl : full = 0 := Nat.eq_zero_of_not_pos fun hf => Nat.lt_irrefl 0 (hrest hf)
    rw [Nat.div_eq_of_lt (by omega)]
    rfl
  · have hone : (rest + size - 1) / size = 1 := Nat.div_eq_of_lt_le (by omega) (by omega)
    rw [hone]
    omega

theorem div_of_rest {full rest size : Nat} (hlt : rest < size) :
    (full * size + rest) / size = full := by
  rw [Nat.add_comm, Nat.add_mul_div_right _ _ (Nat.zero_lt_of_lt hlt), Nat.div_eq_of_lt hlt,
    Nat.zero_add]

namespace Scheduler

variable {σ : Type}

def Arrived (c : Scheduler Scripted σ) : Prop :=
  c.lastHit ≠ .none ∨ ∃ code, c.lastState = some (.exit code)

structure Steady (t : Throughput) (w : Stopwatch) : Prop where
  frameBudget_le : t.config.frameBudget ≤ 0
  elapsed : ∀ k, 0 ≤ w k

theorem exists_measured (c : Scheduler Scripted σ) :
    ∃ steps, c.measured = (c.throughput.record steps (c.stopwatch 0)).2 := by
  unfold measured
  exact ⟨_, rfl⟩

theorem Steady.measured {c : Scheduler Scripted σ} (h : Steady c.throughput c.stopwatch) :
    Steady c.measured c.stopwatch.later ∧ c.measured.stepSize = c.throughput.stepSize := by
  obtain ⟨steps, hm⟩ := c.exists_measured
  let m : Sample := ⟨steps, c.stopwatch 0⟩
  have hquick : c.throughput.config.quick m = false :=
    SchedulerConfig.quick_of_frameBudget_le h.frameBudget_le (h.elapsed 0)
  have hsize := c.throughput.stepSize_record m
  have hconfig := c.throughput.config_record m
  rw [hquick, if_neg Bool.false_ne_true] at hsize
  rw [hm]
  refine ⟨⟨?_, fun k => h.elapsed (k + 1)⟩, hsize⟩
  rw [hconfig]
  exact h.frameBudget_le

structure Going [Storage σ] (c : Scheduler Scripted σ) : Prop where
  running : c.running = true
  unstopped : c.stopRequested = false
  coherent : c.engine.Coherent
  paced : c.throughput.Paced
  accepts : Storage.Accepts c.store.storage

structure Clear (c : Scheduler Scripted σ) : Prop where
  inside : c.engine.position < c.engine.program.size
  unarmed : c.store.set.isArmedAt c.engine.instructionPointer = false

structure Ticks (c d : Scheduler Scripted σ) : Prop where
  coherent : d.engine.Coherent
  program_eq : d.engine.program = c.engine.program
  position_le : c.engine.position ≤ d.engine.position
  steady : Steady c.throughput c.stopwatch →
    Steady d.throughput d.stopwatch ∧ d.throughput.stepSize = c.throughput.stepSize

structure Next [Storage σ] (c d : Scheduler Scripted σ) : Prop extends Ticks c d where
  going : d.Going
  ticks_eq : d.ticks = .queue 1 true
  position_eq : d.engine.position = c.engine.position + c.throughput.stepSize.toNat
  advanced : c.engine.position < d.engine.position
  clear : d.Clear

structure Last (c d : Scheduler Scripted σ) : Prop extends Ticks c d where
  running : d.running = false
  ticks_eq : d.ticks = .queue 0 true
  le_add : d.engine.position ≤ c.engine.position + c.throughput.stepSize.toNat
  arrived : d.Arrived → c.Clear → c.engine.position < d.engine.position
  short : ¬ d.Arrived → d.engine.position < c.engine.position + c.throughput.stepSize.toNat

theorem Clear.advanced {c : Scheduler Scripted σ} (h : c.Clear) {e : Scripted}
    (hprog : e.program = c.engine.program) (hle : c.engine.position ≤ e.position)
    (ha : c.store.set.isArmedAt e.instructionPointer = true) : c.engine.position < e.position := by
  refine Nat.lt_of_le_of_ne hle fun hpos => ?_
  have hip : e.instructionPointer = c.engine.instructionPointer := by
    simp only [Scripted.instructionPointer, Scripted.endAddress, hprog, hpos]
  rw [hip, h.unarmed] at ha
  cases ha

theorem stops_iff {hit : Hit} : hit.stops = true ↔ hit ≠ .none := by
  cases hit <;> simp [Hit.stops]

variable [Storage σ]

theorem Going.retires {c : Scheduler Scripted σ} (h : c.Going) :
    Scripted.Retires c.throughput.stepSize.toNat c.engine c.batchEnd.1 c.batchEnd.2 :=
  h.coherent.retires_batch c.store.set h.paced.step

theorem Going.ticks_batched {c : Scheduler Scripted σ} (h : c.Going) : Ticks c c.batched where
  coherent := h.coherent.batch c.store.set c.throughput.stepSize.toNat
  program_eq := h.retires.program_eq
  position_le := h.retires.position_le
  steady := Steady.measured

def taken (c : Scheduler Scripted σ) : Scheduler Scripted σ :=
  { c with ticks := .queue 0 true }

theorem next_or_last {c : Scheduler Scripted σ} (h : c.Going) :
    Next c c.taken.tick ∨ Last c c.taken.tick := by
  have hr := h.retires
  obtain ⟨hco, hprog, hle, hst⟩ := h.ticks_batched
  have ht := ticked_tick c.taken
  generalize c.taken.tick = d at ht
  cases ht with
  | idle hn => exact absurd (h.running.symm.trans hn) Bool.noConfusion
  | stopped _ hs => exact absurd (h.unstopped.symm.trans hs) Bool.noConfusion
  | failed _ _ hc =>
      obtain ⟨hit, store, -, hok⟩ :=
        Arming.exists_found c.taken.store c.taken.batchEnd.2 c.taken.host h.accepts
      rw [hok] at hc
      cases hc
  | @halted _ _ hit store host hc hh =>
      have hstops := Arming.stops_of_checkHit (congrArg Prod.fst hc)
      refine .inr ⟨⟨hco, hprog, hle, hst⟩, rfl, rfl, hr.le_add, ?_, ?_⟩
      · rintro (hhit | ⟨code, hcode⟩) hclear
        · exact hclear.advanced hprog hle (hstops.symm.trans (stops_iff.mpr hhit))
        · exact hclear.inside.trans_eq (hr.exit code (Option.some.inj hcode)).symm
      · intro hn
        have hunhit : ¬ hit.stops = true := fun hs => hn (.inl (stops_iff.mp hs))
        refine hr.short (hh.resolve_left hunhit) fun code hcode => hn (.inr ⟨code, ?_⟩)
        exact congrArg some hcode
  | @underway hrun hs hit store host hc hh hb =>
      have hstops := Arming.stops_of_checkHit (congrArg Prod.fst hc)
      obtain ⟨rfl, rfl, rfl⟩ := Arming.checkHit_unstopped hc hh
      obtain ⟨hpos, hin⟩ := hr.running hb
      refine .inl ⟨⟨hco, hprog, hle, hst⟩, ⟨hrun, hs, hco, h.paced.record _ _, h.accepts⟩,
        rfl, hpos, ?_, ?_, hstops.symm⟩
      · exact (Nat.lt_add_of_pos_right h.paced.step).trans_eq hpos.symm
      · exact hin.trans_eq (congrArg Array.size hprog.symm)

inductive Ran : Scheduler Scripted σ → Nat → Scheduler Scripted σ → Prop
  | last {c d : Scheduler Scripted σ} (h : Last c d) : Ran c 1 d
  | next {c d e : Scheduler Scripted σ} {n : Nat} (h : Next c d) (hr : Ran d n e) : Ran c (n + 1) e

theorem driveFrom_of_empty {c : Scheduler Scripted σ} (hq : c.ticks = .queue 0 true) (k limit : Nat) :
    driveFrom k limit c = (k, c) := by
  cases limit with
  | zero => rfl
  | succ limit => rw [driveFrom, takeTick?_of_empty hq]

theorem ran_driveFrom {c : Scheduler Scripted σ} (h : c.Going) (hq : c.ticks = .queue 1 true)
    {limit : Nat} (hl : c.engine.program.size - c.engine.position < limit) (k : Nat) :
    ∃ n, (driveFrom k limit c).1 = k + n ∧ Ran c n (driveFrom k limit c).2 := by
  -- A tick that goes on leaves less of the program, so the limit outlasts it.
  induction limit generalizing c k with
  | zero => exact absurd hl (Nat.not_lt_zero _)
  | succ limit ih =>
      rw [driveFrom, takeTick?_of_queue hq]
      change ∃ n, (driveFrom (k + 1) limit c.taken.tick).1 = k + n ∧
        Ran c n (driveFrom (k + 1) limit c.taken.tick).2
      obtain hnext | hlast := next_or_last h
      · have hprog := congrArg Array.size hnext.program_eq
        have hadv := hnext.advanced
        have hin := hnext.clear.inside
        obtain ⟨n, hn, hran⟩ := ih hnext.going hnext.ticks_eq (by omega) (k + 1)
        exact ⟨n + 1, by omega, .next hnext hran⟩
      · rw [driveFrom_of_empty hlast.ticks_eq]
        exact ⟨1, rfl, .last hlast⟩

theorem Ran.atEnd {c d : Scheduler Scripted σ} {n : Nat} (h : Ran c n d) :
    d.running = false ∧ d.ticks = .queue 0 true := by
  induction h with
  | last h => exact ⟨h.running, h.ticks_eq⟩
  | next _ _ ih => exact ih

theorem Ran.coherent {c d : Scheduler Scripted σ} {n : Nat} (h : Ran c n d) : d.engine.Coherent := by
  induction h with
  | last h => exact h.coherent
  | next _ _ ih => exact ih

theorem Ran.bounds {c d : Scheduler Scripted σ} {n : Nat} (h : Ran c n d) :
    0 < n ∧ c.engine.position + n ≤ d.engine.position + 1 := by
  induction h with
  | last h => exact ⟨Nat.one_pos, Nat.succ_le_succ h.position_le⟩
  | next h _ ih =>
      have hadv := h.advanced
      omega

theorem Ran.stepSize_eq {c d : Scheduler Scripted σ} {n : Nat} (h : Ran c n d)
    (hs : Steady c.throughput c.stopwatch) : d.throughput.stepSize = c.throughput.stepSize := by
  induction h with
  | last h => exact (h.steady hs).2
  | next h _ ih =>
      obtain ⟨hsteady, hsize⟩ := h.steady hs
      exact (ih hsteady).trans hsize

theorem Ran.exists_full {c d : Scheduler Scripted σ} {n : Nat} (h : Ran c n d)
    (hs : Steady c.throughput c.stopwatch) :
    ∃ full rest, n = full + 1 ∧
      d.engine.position = c.engine.position + full * c.throughput.stepSize.toNat + rest ∧
      rest ≤ c.throughput.stepSize.toNat ∧
      (d.Arrived → c.Clear ∨ 0 < full → 0 < rest) ∧
      (¬ d.Arrived → rest < c.throughput.stepSize.toNat) := by
  induction h with
  | @last c d h =>
      have hle := h.position_le
      have hadd := h.le_add
      refine ⟨0, d.engine.position - c.engine.position, rfl, by omega, by omega, ?_, ?_⟩
      · rintro ha (hclear | hfull)
        · exact Nat.sub_pos_of_lt (h.arrived ha hclear)
        · cases hfull
      · intro hn
        have hshort := h.short hn
        omega
  | @next c d e n h _ ih =>
      obtain ⟨hsteady, hsize⟩ := h.steady hs
      obtain ⟨full, rest, rfl, hpos, hrest, harrived, hshort⟩ := ih hsteady
      rw [hsize] at hpos hrest hshort
      refine ⟨full + 1, rest, rfl, ?_, hrest, fun ha _ => harrived ha (.inl h.clear), hshort⟩
      rw [hpos, h.position_eq, Nat.succ_mul]
      omega

theorem Ran.retired_eq {c d : Scheduler Scripted σ} {n : Nat} (h : Ran c n d)
    (hc : c.engine.Coherent) :
    d.engine.count - c.engine.count = d.engine.position - c.engine.position := by
  rw [h.coherent.count_eq, hc.count_eq]

theorem Ran.ticks_eq {c d : Scheduler Scripted σ} {n size : Nat} (h : Ran c n d)
    (hc : c.engine.Coherent) (hs : Steady c.throughput c.stopwatch)
    (hsize : c.throughput.stepSize.toNat = size) (hpos : 0 < size) :
    (d.Arrived → n = max 1 ((d.engine.count - c.engine.count + size - 1) / size)) ∧
      (¬ d.Arrived → n = (d.engine.count - c.engine.count) / size + 1) := by
  obtain ⟨full, rest, rfl, hend, hrest, harrived, hshort⟩ := h.exists_full hs
  rw [hsize] at hend hrest hshort
  rw [h.retired_eq hc, hend, Nat.add_assoc, Nat.add_sub_cancel_left]
  exact ⟨fun ha => ceil_div_of_rest hpos hrest fun hf => harrived ha (.inr hf),
    fun ha => by rw [div_of_rest (hshort ha)]⟩

theorem going_start {c : Scheduler Scripted σ} (hidle : c.running = false)
    (he : c.engine.Coherent) (hp : c.throughput.Paced) (hw : Storage.Accepts c.store.storage) :
    c.start.Going := by
  rw [start_of_idle hidle]
  exact ⟨rfl, rfl, coherent_startEngine he, hp, hw⟩

omit [Storage σ] in
theorem ticks_start {c : Scheduler Scripted σ} (hidle : c.running = false)
    (hq : c.ticks = .queue 0 true) :
    c.start.ticks = .queue (if c.tickPending then 0 else 1) true := by
  rw [start_of_idle hidle]
  change (if c.tickPending then c.ticks else c.ticks.request) = _
  rw [hq]
  cases c.tickPending <;> rfl

omit [Storage σ] in
theorem measures_start {c : Scheduler Scripted σ} (hidle : c.running = false) :
    c.start.throughput = c.throughput ∧ c.start.stopwatch = c.stopwatch := by
  rw [start_of_idle hidle]
  exact ⟨rfl, rfl⟩

theorem ran_drive {c : Scheduler Scripted σ} (h : c.Going) (hq : c.ticks = .queue 1 true) :
    Ran c c.drive.1 c.drive.2 := by
  have hl : c.engine.program.size - c.engine.position < c.ticksLeft := by
    have hleft : c.ticksLeft = 1 + (c.engine.program.size - c.engine.position + 1) := by
      simp only [ticksLeft, hq, TickRequests.waiting]
      rfl
    omega
  obtain ⟨n, hn, hran⟩ := ran_driveFrom h hq hl 0
  rw [Nat.zero_add] at hn
  change Ran c (driveFrom 0 c.ticksLeft c).1 _
  rwa [hn]

end Scheduler

namespace Session

variable {σ : Type} [Storage σ]

def batchSize (s : Session Scripted σ) : Nat :=
  s.scheduler.throughput.stepSize.toNat

def afterRun (s : Session Scripted σ) : Scheduler Scripted σ :=
  s.start.drive.2.scheduler

def retired (s : Session Scripted σ) : Nat :=
  s.afterRun.engine.count - s.start.scheduler.engine.count

theorem ticks_of_drive {s : Session Scripted σ} {config : SchedulerConfig} {samples : List Sample}
    (he : s.scheduler.engine.Reachable) (hidle : s.scheduler.running = false)
    (hq : s.scheduler.ticks = .queue 0 true) (hw : Storage.Accepts s.scheduler.store.storage)
    (hc : DebuggerConfig.fault? config = none)
    (ht : s.scheduler.throughput = (Throughput.ofConfig config).after samples) :
    s.start.DrivesTo s.start.drive.2 ∧
      (s.scheduler.tickPending = false → s.afterRun.running = false) ∧
      s.start.drive.1 ≤ s.retired + 1 ∧
      (config.frameBudget ≤ 0 → (∀ k, 0 ≤ s.scheduler.stopwatch k) → s.afterRun.running = false →
        s.afterRun.throughput.stepSize = s.scheduler.throughput.stepSize ∧
        (s.afterRun.Arrived →
          s.start.drive.1 = max 1 ((s.retired + s.batchSize - 1) / s.batchSize)) ∧
        (¬ s.afterRun.Arrived → s.start.drive.1 = s.retired / s.batchSize + 1)) := by
  have hp : s.scheduler.throughput.Paced := by
    rw [ht]
    exact (Throughput.paced_ofConfig hc).after samples
  have hgoing := Scheduler.going_start hidle he.coherent hp hw
  have hticks := Scheduler.ticks_start hidle hq
  cases hpend : s.scheduler.tickPending with
  | true =>
      -- The tick that is due was taken from the queue and never run, so the new run gets none.
      rw [hpend, if_pos rfl] at hticks
      have hnone : s.scheduler.start.drive = (0, s.scheduler.start) :=
        Scheduler.driveFrom_of_empty hticks 0 _
      have hn : s.start.drive.1 = 0 := congrArg Prod.fst hnone
      have hafter : s.afterRun = s.scheduler.start := congrArg Prod.snd hnone
      have htake : s.afterRun.takeTick? = none := by
        rw [hafter]
        exact Scheduler.takeTick?_of_empty hticks
      refine ⟨drivesTo_of_takeTick? htake, nofun, by omega, fun _ _ hdone => ?_⟩
      rw [hafter, hgoing.running] at hdone
      cases hdone
  | false =>
      rw [hpend] at hticks
      have hran : s.scheduler.start.Ran s.start.drive.1 s.afterRun :=
        Scheduler.ran_drive hgoing hticks
      obtain ⟨hsame, hwatch⟩ := Scheduler.measures_start hidle
      have hretired : s.retired = _ := hran.retired_eq hgoing.coherent
      obtain ⟨hpos, hbound⟩ := hran.bounds
      refine ⟨drivesTo_of_takeTick? (Scheduler.takeTick?_of_empty hran.atEnd.2), fun _ => hran.atEnd.1,
        by omega, fun hbudget helapsed _ => ?_⟩
      have hsteady : Scheduler.Steady s.scheduler.start.throughput s.scheduler.start.stopwatch := by
        rw [hsame, hwatch, ht]
        refine ⟨?_, helapsed⟩
        rwa [Throughput.config_after]
      have hsize : s.scheduler.start.throughput.stepSize.toNat = s.batchSize := by
        rw [hsame]
        rfl
      exact ⟨(hran.stepSize_eq hsteady).trans (congrArg Throughput.stepSize hsame),
        hran.ticks_eq hgoing.coherent hsteady hsize hp.step⟩

theorem ticks_of_drive_to_breakpoint :
    let config : SchedulerConfig := ⟨2, 0, 0, 1, none⟩
    let s := (create (.ofProgram #[10, 20, 30, 40, 50] [] 0 .empty) "p" [] MemoryStorage.empty .channel
      config .still : Session Scripted MemoryStorage).run [.add (.standing 50)]
    (s.scheduler.running = false ∧ s.scheduler.ticks = .queue 0 true ∧
        DebuggerConfig.fault? config = none ∧ config.frameBudget ≤ 0 ∧ s.afterRun.running = false ∧
        s.afterRun.Arrived) ∧
      s.retired = 4 ∧ s.batchSize = 2 ∧
      s.start.drive.1 = max 1 ((s.retired + s.batchSize - 1) / s.batchSize) := by
  intro config s
  have he : s.scheduler.engine.Reachable := .ofProgram #[10, 20, 30, 40, 50] [] 0 .empty
  have hidle : s.scheduler.running = false := by decide +kernel
  have hq : s.scheduler.ticks = .queue 0 true := by decide +kernel
  have hc : DebuggerConfig.fault? config = none := by decide +kernel
  have ht : s.scheduler.throughput = (Throughput.ofConfig config).after [] := rfl
  have hbudget : config.frameBudget ≤ 0 := by decide +kernel
  have hzero : (0 : Float) ≤ 0 := by decide +kernel
  have hwatch : s.scheduler.stopwatch = fun _ => 0 := rfl
  have hend : s.afterRun.running = false := by decide +kernel
  have harrived : s.afterRun.Arrived := .inl (by decide +kernel)
  have hretired : s.retired = 4 := by decide +kernel
  have hsize : s.batchSize = 2 := by decide +kernel
  have hcounts := (ticks_of_drive he hidle hq (MemoryStorage.accepts _) hc ht).2.2.2 hbudget
    (fun _ => hwatch ▸ hzero) hend
  exact ⟨⟨hidle, hq, hc, hbudget, hend, harrived⟩, hretired, hsize, hcounts.2.1 harrived⟩

end Session

end RunControl
