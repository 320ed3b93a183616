import RunControl.Proofs.Resuming
import RunControl.Proofs.TickChain

namespace RunControl

namespace Scripted

/-- Whether a start gets the program off the place where it is: off a block that it waits at, or off a
breakpoint that nothing else holds it at. -/
def Parked (e : Scripted) (s : BreakpointSet) : Prop :=
  e.blocked = true ∨ (s.isArmedAt e.instructionPointer = true ∧ e.isFree e.position = true)

instance (e : Scripted) (s : BreakpointSet) : Decidable (e.Parked s) :=
  inferInstanceAs (Decidable (_ ∨ _))

theorem isFree_of_isArmedAt {e : Scripted} {s : BreakpointSet}
    (h : s.isArmedAt e.instructionPointer = true) : (e.armed s).isFree e.position = false := by
  obtain hp | ⟨a, hp⟩ := Option.eq_none_or_eq_some e.program[e.position]?
  · have hn : (e.armed s).program[e.position]? = none := hp
    simp [isFree, hn]
  · have hn : (e.armed s).program[e.position]? = some a := hp
    have hi : e.instructionPointer = a := by simp [instructionPointer, hp]
    have hr : (e.armed s).registered.contains a = true := by
      rw [armed, contains_foldl_insert, decide_eq_true (BreakpointSet.mem_enabled_iff.mpr (hi ▸ h))]
      rfl
    simp [isFree, hn, hr]

theorem run_of_not_isFree {e : Scripted} (h : e.Coherent) (hf : e.isFree e.position = false)
    (limit : Nat) :
    ∃ state blocked last, e.run limit = (state, { e with blocked, last }) ∧
      ∀ host, Scheduler.haltTold (some state) host =
        if e.position = e.program.size then host.push (.exit e.exitCode) else host := by
  cases hx : e.exited with
  | true =>
      refine ⟨_, e.blocked, e.last, h.run_of_exited hx limit, fun host => ?_⟩
      rw [if_pos (exited_of_position_eq h hx).1]
      rfl
  | false =>
      cases hb : e.blocked with
      | true =>
          refine ⟨_, e.blocked, some .blocked, h.run_of_blocked hx hb limit, fun host => ?_⟩
          rw [if_neg (Nat.ne_of_lt (h.lt_of_blocked hb))]
          rfl
      | false =>
          have hrest : e.restFrom e.position = e.position :=
            restFrom_unique (le_refl _) (fun j h1 h2 => by omega) hf
          have hq : min (e.position + limit) (e.restFrom e.position) = e.position := by omega
          have hrun := h.run_of_free hx hb limit
          simp only [hq] at hrun
          have hmove : e.run limit = (e.stateAt limit e.position, { e with
              blocked := e.stateAt limit e.position == .blocked
              last := some (e.stateAt limit e.position) }) := by
            rw [hrun]
            simp [moveTo]
          refine ⟨_, _, _, hmove, fun host => ?_⟩
          simp only [stateAt]
          split
          · rfl
          · split
            · rfl
            · rcases e.halt?_cases e.position with hc | hc <;> rw [hc] <;> rfl

theorem batch_of_isArmedAt {e : Scripted} (h : e.Coherent) {s : BreakpointSet}
    (ha : s.isArmedAt e.instructionPointer = true) (limit : Nat) :
    let r := Engine.batch s.enabled limit e
    r.2.position = e.position ∧ r.2.instructionPointer = e.instructionPointer ∧
      ∀ host, Scheduler.haltTold (some r.1) host =
        if e.position = e.program.size then host.push (.exit e.exitCode) else host := by
  obtain ⟨state, blocked, last, hrun, htold⟩ :=
    run_of_not_isFree (h.armed s) (isFree_of_isArmedAt ha) limit
  have hbatch : Engine.batch s.enabled limit e = (((e.armed s).run limit).1,
      { ((e.armed s).run limit).2 with
        registered := s.enabled.foldl Table.erase ((e.armed s).run limit).2.registered }) := by
    simp only [Engine.batch, foldl_register, foldl_clear]
    rfl
  rw [hbatch, hrun]
  exact ⟨rfl, rfl, htold⟩

theorem restAt_of_isArmedAt {e : Scripted} {s : BreakpointSet}
    (h : s.isArmedAt e.instructionPointer = true) : e.restAt s = e.position :=
  restFrom_unique (le_refl _) (fun j h1 h2 => by omega) (isFree_of_isArmedAt h)

theorem Parked.position_settle {e : Scripted} {s : BreakpointSet} (h : e.Parked s) :
    (e.settle s).position = e.position := by
  rw [settle]
  split
  · rfl
  · rename_i hb
    exact restAt_of_isArmedAt (h.resolve_left hb).1

theorem Parked.lt_size {e : Scripted} {s : BreakpointSet} (h : e.Parked s) (he : e.Coherent) :
    e.position < e.program.size := by
  rcases h with hb | ⟨-, hf⟩
  · exact he.lt_of_blocked hb
  · exact isFree_lt_size hf

theorem Parked.not_stuck {e : Scripted} {s : BreakpointSet} (h : e.Parked s) (he : e.Coherent) :
    e.openBlocks.contains e.position = false ∧ ¬ e.Stuck s := by
  have hopen : e.openBlocks.contains e.position = false := by
    simp only [openBlocks]
    split
    · simp [Table.contains_erase]
    · rename_i hb
      have hf := (h.resolve_left hb).2
      simp only [isFree, Array.getElem?_eq_getElem (h.lt_size he), Bool.and_eq_true,
        Bool.not_eq_true'] at hf
      exact hf.2
  refine ⟨hopen, fun hs => ?_⟩
  rw [hs.2.2] at hopen
  cases hopen

theorem Parked.lt_of_endsAt {e : Scripted} {s : BreakpointSet} (h : e.Parked s) (he : e.Coherent)
    {q : Nat} {blocked : Bool} (hq : Scheduler.EndsAt e s q blocked) : e.position < q := by
  have hlt := h.lt_size he
  obtain ⟨hopen, hstuck⟩ := h.not_stuck he
  obtain ⟨hfrom, hhalt⟩ := (hq.least hstuck).1
  -- A breakpoint is stepped off; where only a block was, nothing is left that halts the run.
  cases ha : s.isArmedAt e.instructionPointer with
  | true =>
      rw [runFrom_of_not_stuck hlt ha hstuck] at hfrom
      exact hfrom
  | false =>
      have hne : q ≠ e.position := by
        rintro rfl
        have hip : e.instructionPointer = e.program[e.position] := by
          simp [instructionPointer, Array.getElem?_eq_getElem hlt]
        simp [Halts, Nat.ne_of_lt hlt, Array.getElem?_eq_getElem hlt, hopen, ← hip, ha] at hhalt
      have hle := hq.le
      omega

end Scripted

structure RunEnd (σ : Type) where
  position : Nat
  lastHit : Hit
  store : Store σ
  host : HostLog

namespace Scheduler

variable {σ : Type}

def runEnd (c : Scheduler Scripted σ) : RunEnd σ where
  position := c.engine.position
  lastHit := c.lastHit
  store := c.store
  host := c.host

theorem restart_eq {c : Scheduler Scripted σ} (hr : c.running = true) (hs : c.stopRequested = false)
    (hc : c.Chained) :
    c.stop.start = { c with engine := c.startEngine, lastState := c.startState } := by
  have hp := hc.pending hr
  have hh := hc.unhit hr
  rw [start_of_idle (c := c.stop) rfl]
  simp only [stop, startEngine, startState, hp, hh, hr, hs, if_true]

theorem restart_cases {c : Scheduler Scripted σ} (hr : c.running = true)
    (hs : c.stopRequested = false) (hc : c.Chained) (he : c.engine.Coherent)
    (hp : ¬ c.engine.Parked c.store.set) :
    c.stop.start = c ∨ (c.store.set.isArmedAt c.engine.instructionPointer = true ∧
      ∃ blocked last lastState,
        c.stop.start = { c with engine := { c.engine with blocked, last }, lastState }) := by
  simp only [Scripted.Parked, not_or, not_and, Bool.not_eq_true] at hp
  have hu : c.engine.unblock = c.engine := by simp [Scripted.unblock, hp.1]
  have hst := restart_eq hr hs hc
  rw [startEngine_eq, hu] at hst
  -- Off a breakpoint the start changes nothing; at one, its step is stopped before the instruction.
  cases ha : c.store.set.isArmedAt c.engine.instructionPointer with
  | false =>
      refine .inl ?_
      have hl : c.startState = c.lastState := by
        show (if c.store.set.isArmedAt c.engine.unblock.instructionPointer then _ else _) = _
        rw [hu, ha]
        rfl
      rw [hst, ha, hl]
      rfl
  | true =>
      obtain ⟨state, blocked, last, hrun, -⟩ := Scripted.run_of_not_isFree he (hp.2 ha) 1
      rw [ha, if_pos rfl, hrun] at hst
      exact .inr ⟨rfl, blocked, last, c.startState, hst⟩

structure Meets (c : Scheduler Scripted σ) : Prop where
  running : c.running = true
  unstopped : c.stopRequested = false
  coherent : c.engine.Coherent
  armed : c.store.set.isArmedAt c.engine.instructionPointer = true

theorem Meets.withTicks {c : Scheduler Scripted σ} (h : c.Meets) (ticks : TickRequests) :
    Meets { c with ticks } :=
  ⟨h.running, h.unstopped, h.coherent, h.armed⟩

variable [Storage σ]

def hitEnd (c : Scheduler Scripted σ) : RunEnd σ :=
  let e := c.engine
  match Arming.checkHit c.store e c.host with
  | (.error err, store, host) => ⟨e.position, c.lastHit, store, host.push (.error err.message)⟩
  | (.ok hit, store, host) =>
      ⟨e.position, hit, store,
        if e.position = e.program.size then host.push (.exit e.exitCode) else host⟩

theorem Meets.tick {c : Scheduler Scripted σ} (h : c.Meets) :
    c.tick.running = false ∧ c.tick.ticks = c.ticks ∧ c.tick.runEnd = c.hitEnd := by
  obtain ⟨hpos, hip, htold⟩ : c.batchEnd.2.position = c.engine.position ∧
      Engine.instructionPointer c.batchEnd.2 = c.engine.instructionPointer ∧
      ∀ host, haltTold (some c.batchEnd.1) host = if c.engine.position = c.engine.program.size then
        host.push (.exit c.engine.exitCode) else host :=
    Scripted.batch_of_isArmedAt h.coherent h.armed c.throughput.stepSize.toNat
  have hcheck : Arming.checkHit c.store c.engine c.host = Arming.checkHit c.store c.batchEnd.2 c.host :=
    Arming.checkHit_congr c.store c.host hip.symm
  have ht := ticked_tick c
  generalize c.tick = d at ht
  cases ht with
  | idle hn => exact absurd h.running (by simp [hn])
  | stopped _ hn => exact absurd h.unstopped (by simp [hn])
  | failed _ _ hc =>
      refine ⟨rfl, rfl, ?_⟩
      simp only [hitEnd, hcheck, hc, ← hpos]
      rfl
  | @halted _ _ hit store host hc _ =>
      refine ⟨rfl, rfl, ?_⟩
      simp only [hitEnd, hcheck, hc, ← htold host]
      rw [← hpos]
      rfl
  | underway _ _ hc hh _ =>
      have hstop := Arming.stops_of_checkHit (by rw [hc])
      rw [hh, hip, h.armed] at hstop
      cases hstop

theorem Meets.runEnd_driveFor {c : Scheduler Scripted σ} (h : c.Meets) {n : Nat}
    (hq : c.ticks = .queue (n + 1) true) (limit : Nat) :
    (c.driveFor (limit + 1)).2.runEnd = c.hitEnd := by
  obtain ⟨hidle, -, hout⟩ := (h.withTicks (.queue n true)).tick
  obtain ⟨ticks, pending, hd⟩ := exists_driveFrom_of_idle hidle 1 limit
  simp only [driveFor, driveFrom, takeTick?_of_queue hq, hd]
  exact hout

theorem Meets.takeTick?_driveFor {c : Scheduler Scripted σ} (h : c.Meets) {n : Nat}
    (hq : c.ticks = .queue (n + 1) true) : (c.driveFor (n + 1)).2.takeTick? = none := by
  obtain ⟨hidle, hticks, -⟩ := (h.withTicks (.queue n true)).tick
  simp only [driveFor, driveFrom, takeTick?_of_queue hq, driveFrom_of_idle hidle hticks (le_refl n)]
  exact takeTick?_of_empty rfl

theorem Meets.halted {c d : Scheduler Scripted σ} (h : c.Meets) {blocked : Bool}
    {last lastState : Option CpuState} (he : d.engine.Coherent)
    (hd : d = { c with engine := { c.engine with blocked, last }, lastState }) :
    d.Meets ∧ d.ticks = c.ticks ∧ d.hitEnd = c.hitEnd := by
  subst hd
  exact ⟨⟨h.running, h.unstopped, he, h.armed⟩, rfl, rfl⟩

theorem runEnd_drive {c : Scheduler Scripted σ} (h : c.Underway)
    (hq : ∃ n, c.ticks = .queue (n + 1) true) : c.drive.2.runEnd = c.settled.runEnd := by
  have hu := unpaced_drive h hq
  exact congrArg (fun d => d.runEnd) hu

theorem takeTick?_drive {c : Scheduler Scripted σ} (h : c.Underway)
    (hq : ∃ n, c.ticks = .queue (n + 1) true) : c.drive.2.takeTick? = none := by
  have hu := unpaced_drive h hq
  exact takeTick?_of_empty ((congrArg (fun d => d.ticks) hu).trans c.ticks_settled)

theorem runEnd_restart_ne {c : Scheduler Scripted σ} (hd : c.Disarmed)
    (hp : c.engine.Parked c.store.set) : c.stop.start.settled.runEnd ≠ c.settled.runEnd := by
  obtain ⟨q, blocked, hends, hset⟩ := exists_endsAt hd
  have hlt := hp.lt_of_endsAt hd.coherent hends
  have hstart : c.stop.start.engine.settle c.stop.start.store.set = c.startEngine.settle c.store.set := by
    rw [start_of_idle (c := c.stop) rfl]
    rfl
  have hq : c.stop.start.settled.runEnd.position = q := by
    show c.stop.start.settled.engine.position = q
    rw [engine_settled, hstart, hset]
    rfl
  have he : c.settled.runEnd.position = c.engine.position :=
    (congrArg Scripted.position c.engine_settled).trans hp.position_settle
  intro heq
  rw [← hq, heq, he] at hlt
  exact Nat.lt_irrefl _ hlt

end Scheduler

namespace Session

variable {σ : Type} [Storage σ]

def EndsWith (s : Session Scripted σ) (o : RunEnd σ) : Prop :=
  ∃ t, s.DrivesTo t ∧ t.scheduler.runEnd = o

theorem EndsWith.eq {s : Session Scripted σ} {o p : RunEnd σ} (ho : s.EndsWith o) (hp : s.EndsWith p) :
    o = p := by
  obtain ⟨t, ht, rfl⟩ := ho
  obtain ⟨u, hu, rfl⟩ := hp
  rw [ht.eq hu]

theorem endsWith_iff_of_meets {s : Session Scripted σ} (h : s.scheduler.Meets)
    (hq : ∃ n, s.scheduler.ticks = .queue (n + 1) true) (o : RunEnd σ) :
    s.EndsWith o ↔ o = s.scheduler.hitEnd := by
  obtain ⟨n, hn⟩ := hq
  have hout := h.runEnd_driveFor hn
  constructor
  · rintro ⟨_, ⟨limit, hlt, rfl⟩, rfl⟩
    cases limit with
    | zero => exact absurd hlt (Nat.not_lt_zero _)
    | succ limit => exact hout limit
  · rintro rfl
    exact ⟨_, drivesTo_of_takeTick? (h.takeTick?_driveFor hn), hout n⟩

theorem endsWith_drive {s : Session Scripted σ} (h : s.scheduler.Underway)
    (hq : ∃ n, s.scheduler.ticks = .queue (n + 1) true) : s.EndsWith s.drive.2.scheduler.runEnd :=
  ⟨_, drivesTo_of_takeTick? (Scheduler.takeTick?_drive h hq), rfl⟩

theorem endsWith_stop_start {s : Session Scripted σ} (hr : s.scheduler.running = true)
    (hs : s.scheduler.stopRequested = false) (hc : s.scheduler.Chained)
    (he : s.scheduler.engine.Coherent) (hp : ¬ s.scheduler.engine.Parked s.scheduler.store.set)
    (o : RunEnd σ) : s.EndsWith o ↔ s.stop.start.EndsWith o := by
  have hstart : s.stop.start.scheduler = s.scheduler.stop.start := rfl
  rcases Scheduler.restart_cases hr hs hc he hp with hst | ⟨ha, blocked, last, lastState, hst⟩
  · have hself : s.stop.start = s := by
      show ({ s with scheduler := s.scheduler.stop.start } : Session Scripted σ) = s
      rw [hst]
    rw [hself]
  · have hm : s.scheduler.Meets := ⟨hr, hs, he, ha⟩
    have hco : s.scheduler.stop.start.engine.Coherent := Scheduler.coherent_start he
    obtain ⟨hm', hticks, hout⟩ := hm.halted hco hst
    have hq := hc.exists_waiting hr
    rw [endsWith_iff_of_meets hm hq, endsWith_iff_of_meets (s := s.stop.start) hm' (by rwa [hstart, hticks]),
      hstart, hout]

theorem endsWith_restart {e : Scripted} (he : e.Reachable) (key : String)
    (given : List (Address × String)) (storage : σ) (config : SchedulerConfig) (w : Stopwatch)
    (ops : List Op) :
    let s := (create e key given storage .channel config w).run ops
    let parked := s.scheduler.engine.Parked s.scheduler.store.set
    s.scheduler.running = true → s.scheduler.stopRequested = false →
      (¬ parked → ∀ o, s.EndsWith o ↔ s.stop.start.EndsWith o) ∧
      (e.registered = .empty → DebuggerConfig.fault? config = none →
        s.EndsWith s.drive.2.scheduler.runEnd ∧
        s.stop.start.EndsWith s.stop.start.drive.2.scheduler.runEnd ∧
        (s.stop.start.drive.2.scheduler.runEnd = s.drive.2.scheduler.runEnd ↔ ¬ parked)) := by
  intro s parked hr hs
  have hc : s.scheduler.Chained := chained_run e key given storage config w ops
  have hco : s.scheduler.engine.Coherent :=
    kept_coherent.run (s := create e key given storage .channel config w) he.coherent ops
  refine ⟨fun hp => endsWith_stop_start hr hs hc hco hp, fun hreg hvalid => ?_⟩
  have hd : s.scheduler.Disarmed := disarmed_run he hreg key given storage .channel config w ops
  have hpaced : s.scheduler.throughput.Paced := paced_run e key given storage .channel hvalid w ops
  have hu : s.scheduler.Underway := ⟨hr, hs, hc.unhit hr, hd, hpaced⟩
  have hq := hc.exists_waiting hr
  obtain ⟨hu', hq'⟩ := Scheduler.underway_start (c := s.scheduler.stop) rfl
    ⟨hc.queue, nofun, nofun⟩ ⟨hd.coherent, hd.clear⟩ hpaced
  have hends := endsWith_drive hu hq
  have hends' := endsWith_drive (s := s.stop.start) hu' hq'
  refine ⟨hends, hends', fun heq hp => ?_, fun hp => ?_⟩
  · have hne := Scheduler.runEnd_restart_ne hd hp
    rw [← Scheduler.runEnd_drive hu hq, ← Scheduler.runEnd_drive hu' hq'] at hne
    exact hne heq
  · exact hends'.eq ((endsWith_stop_start hr hs hc hco hp _).mp hends)

theorem endsWith_restart_held :
    let s := (create (.ofProgram #[10, 20, 30] [1] 0 .empty) "p" [] MemoryStorage.empty .channel .standard
      .still : Session Scripted MemoryStorage).run [.add (.standing 10), .add (.single 20), .start]
    (s.scheduler.running = true ∧ s.scheduler.stopRequested = false ∧
        ¬ s.scheduler.engine.Parked s.scheduler.store.set) ∧
      (∀ o, s.EndsWith o ↔ s.stop.start.EndsWith o) ∧
      s.EndsWith s.drive.2.scheduler.runEnd ∧
      s.stop.start.EndsWith s.stop.start.drive.2.scheduler.runEnd ∧
      s.stop.start.drive.2.scheduler.runEnd = s.drive.2.scheduler.runEnd := by
  have he : (Scripted.ofProgram #[10, 20, 30] [1] 0 .empty).Reachable := .ofProgram ..
  have hs : let s := (create (.ofProgram #[10, 20, 30] [1] 0 .empty) "p" [] MemoryStorage.empty .channel
      .standard .still : Session Scripted MemoryStorage).run [.add (.standing 10), .add (.single 20), .start]
    s.scheduler.running = true ∧ s.scheduler.stopRequested = false ∧
      ¬ s.scheduler.engine.Parked s.scheduler.store.set := by
    decide +kernel
  have hc : DebuggerConfig.fault? .standard = none := by decide +kernel
  obtain ⟨hiff, hdriven⟩ := endsWith_restart he "p" [] MemoryStorage.empty .standard .still
    [.add (.standing 10), .add (.single 20), .start] hs.1 hs.2.1
  obtain ⟨hends, hends', heq⟩ := hdriven rfl hc
  exact ⟨hs, hiff hs.2.2, hends, hends', heq.mpr hs.2.2⟩

theorem hit_lost_by_restart :
    let s := (create (.ofProgram #[16, 17, 18] [] 0 .empty) "p" [] MemoryStorage.empty .channel .standard
      .still : Session Scripted MemoryStorage).run [.add (.standing 16), .add (.standing 17), .start]
    (s.scheduler.running = true ∧ s.scheduler.stopRequested = false) ∧
      (s.drive.2.scheduler.lastHit = .persistent 17 ∧ s.drive.2.scheduler.engine.position = 1) ∧
      s.stop.start.drive.2.scheduler.lastHit = .none ∧
      s.stop.start.drive.2.scheduler.engine.position = 3 := by
  decide +kernel

end Session

end RunControl
