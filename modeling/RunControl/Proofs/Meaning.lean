import RunControl.Proofs.Drive
import RunControl.Proofs.Splitting

namespace RunControl

namespace Scripted

def openBlocks (e : Scripted) : KeySet Nat :=
  if e.blocked then e.blocks.erase e.position else e.blocks

def Stuck (e : Scripted) (s : BreakpointSet) : Prop :=
  e.position < e.program.size ∧ s.isArmedAt e.instructionPointer = true ∧
    e.openBlocks.contains e.position = true

def runFrom (e : Scripted) (s : BreakpointSet) : Nat :=
  if e.position < e.program.size ∧ s.isArmedAt e.instructionPointer = true ∧
    e.openBlocks.contains e.position = false then e.position + 1 else e.position

def Halts (e : Scripted) (s : BreakpointSet) (j : Nat) : Prop :=
  j = e.program.size ∨ (∃ a, e.program[j]? = some a ∧ s.isArmedAt a = true) ∨
    e.openBlocks.contains j = true

theorem unblock_eq (e : Scripted) : e.unblock = { e with blocked := false, blocks := e.openBlocks } := by
  simp only [unblock, openBlocks]
  split
  · rfl
  · rename_i hb
    simp only [Bool.not_eq_true] at hb
    simp [← hb]

def ended (e : Scripted) (q : Nat) (blocked : Bool) : Scripted :=
  { e with
    position := q
    count := e.count + (q - e.position)
    blocks := e.openBlocks
    blocked
    last := if q = e.program.size then some (.exit e.exitCode) else none }

theorem unblock_moveTo (e : Scripted) (q : Nat) (blocked : Bool) :
    e.unblock.moveTo q blocked (if q = e.program.size then some (.exit e.exitCode) else none) =
      e.ended q blocked := by
  rw [unblock_eq]
  rfl

theorem exited_ended (e : Scripted) (q : Nat) (blocked : Bool) :
    (e.ended q blocked).exited = decide (q = e.program.size) := by
  by_cases h : q = e.program.size <;> simp [ended, exited, h]

theorem unblock_unblock (e : Scripted) : e.unblock.unblock = e.unblock := by
  rw [unblock_eq e]
  rfl

theorem run_one_of_blocks {e : Scripted} (h : e.Coherent) (hr : e.registered = .empty)
    (hb : e.blocked = false) (hp : e.position < e.program.size)
    (hk : e.blocks.contains e.position = true) :
    (e.run 1).2 = e.moveTo e.position true (some .blocked) := by
  rw [h.run_one hr hb hp, if_pos hk]

theorem run_one_of_open {e : Scripted} (h : e.Coherent) (hr : e.registered = .empty)
    (hb : e.blocked = false) (hp : e.position < e.program.size)
    (hk : e.blocks.contains e.position = false) :
    ∃ last, (e.run 1).2 = e.moveTo (e.position + 1) false last := by
  rw [h.run_one hr hb hp, if_neg (Bool.eq_false_iff.mp hk)]
  exact ⟨_, rfl⟩

theorem run_one_of_end {e : Scripted} (h : e.Coherent) (hb : e.blocked = false)
    (hp : e.position = e.program.size) :
    ∃ last, (e.run 1).2 = e.moveTo e.position false last := by
  cases hx : e.exited with
  | true =>
      rw [h.run_of_exited hx]
      exact ⟨e.last, by simp [moveTo, ← hb]⟩
  | false =>
      have hge := e.le_restFrom e.position
      have hle := restFrom_le_size (hp.le)
      have hq : min (e.position + 1) (e.restFrom e.position) = e.position := by omega
      have hs : (e.stateAt 1 e.position == .blocked) = false := by
        simp only [stateAt, if_pos hp]
        rfl
      rw [h.run_of_free hx hb]
      simp only [hq, hs]
      exact ⟨_, rfl⟩

theorem stopsAt_armed {e : Scripted} (hr : e.registered = .empty) (s : BreakpointSet) (j : Nat) :
    (e.unblock.armed s).StopsAt j ↔ e.Halts s j := by
  have hu : e.unblock.registered = .empty := by rw [registered_unblock, hr]
  simp only [StopsAt, contains_armed hu]
  rw [unblock_eq]
  rfl

theorem runFrom_le_size {e : Scripted} (h : e.Coherent) (s : BreakpointSet) :
    e.runFrom s ≤ e.program.size := by
  have hp := h.position_le
  simp only [runFrom]
  split <;> omega

theorem le_runFrom (e : Scripted) (s : BreakpointSet) : e.position ≤ e.runFrom s := by
  simp only [runFrom]
  split <;> omega

theorem isLeast_restFrom {e : Scripted} (h : e.Coherent) (hr : e.registered = .empty)
    (s : BreakpointSet) :
    IsLeast {j | e.runFrom s ≤ j ∧ e.Halts s j} ((e.unblock.armed s).restFrom (e.runFrom s)) := by
  have hsize : (e.unblock.armed s).program.size = e.program.size := by
    rw [unblock_eq]
    rfl
  have hleast := isLeast_stopsAt (e := e.unblock.armed s) (hsize ▸ runFrom_le_size h s)
  simp only [stopsAt_armed hr s] at hleast
  exact hleast

end Scripted

def Storage.Accepts {σ : Type} [Storage σ] (s : σ) : Prop :=
  ∀ key value, (Storage.set s key value).1 = .ok ()

theorem MemoryStorage.accepts (s : MemoryStorage) : Storage.Accepts s :=
  fun _ _ => rfl

namespace Arming

variable {ε σ : Type} [Engine ε] [Storage σ]

inductive Found (s : Store σ) (a : Address) : Hit → Store σ → Prop
  | missed (h : s.set.isArmedAt a = false) : Found s a .none s
  | single {b : Breakpoint} (h : s.set.at? a = some b) (he : b.isEnabled = true)
      (ho : b.oneShot = true) : Found s a (.transient a) { s with
        set := s.set.erase a
        storage := (Storage.set s.storage s.key (BreakpointSet.text (s.set.erase a))).2 }
  | standing {b : Breakpoint} (h : s.set.at? a = some b) (he : b.isEnabled = true)
      (ho : b.oneShot = false) : Found s a (.persistent a) s

theorem exists_found (s : Store σ) (e : ε) (host : HostLog)
    (hw : Storage.Accepts s.storage) :
    ∃ hit store, Found s (Engine.instructionPointer e) hit store ∧
      checkHit s e host = (.ok hit, store, host ++
        if hit = .persistent (Engine.instructionPointer e) then #[.showTab breakpointsTab] else #[]) := by
  cases ha : s.set.isArmedAt (Engine.instructionPointer e) with
  | false =>
      refine ⟨_, _, .missed ha, ?_⟩
      rw [checkHit_of_notArmed host ha]
      simp
  | true =>
      obtain ⟨b, hb, he⟩ := exists_of_isArmedAt ha
      cases ho : b.oneShot with
      | false =>
          refine ⟨_, _, .standing hb he ho, ?_⟩
          rw [checkHit_of_standing host hb he ho]
          simp
      | true =>
          refine ⟨_, _, .single hb he ho, ?_⟩
          have hok := hw s.key (BreakpointSet.text (s.set.erase (Engine.instructionPointer e)))
          rw [checkHit_of_single host hb he ho, Store.commit_eq]
          cases hr : Storage.set s.storage s.key
              (BreakpointSet.text (s.set.erase (Engine.instructionPointer e))) with
          | mk r storage =>
              rw [hr] at hok
              cases hok
              simp

theorem Found.hit_iff {s t : Store σ} {a : Address} {hit : Hit} (h : Found s a hit t) :
    hit ≠ .none ↔ s.set.isArmedAt a = true := by
  cases h with
  | missed h => simp [h]
  | single h he ho => simp [BreakpointSet.isArmedAt, h, he]
  | standing h he ho => simp [BreakpointSet.isArmedAt, h, he]

end Arming

namespace Scheduler

variable {σ : Type}

theorem startEngine_eq (c : Scheduler Scripted σ) :
    c.startEngine =
      if c.store.set.isArmedAt c.engine.instructionPointer then (c.engine.unblock.run 1).2
      else c.engine.unblock := by
  have hi : c.engine.unblock.instructionPointer = c.engine.instructionPointer := by
    rw [Scripted.unblock_eq]
    rfl
  show (if c.store.set.isArmedAt c.engine.unblock.instructionPointer then
    (c.engine.unblock.unblock.run 1).2 else c.engine.unblock) = _
  rw [hi, Scripted.unblock_unblock]

theorem startEngine_of_stuck {c : Scheduler Scripted σ} (h : c.Disarmed)
    (hs : c.engine.Stuck c.store.set) :
    c.startEngine = c.engine.unblock.moveTo c.engine.position true (some .blocked) := by
  obtain ⟨hp, ha, hk⟩ := hs
  have hm := h.coherent.unblock
  have hr : c.engine.unblock.registered = .empty := by rw [Scripted.registered_unblock, h.clear]
  rw [startEngine_eq, ha, if_pos rfl]
  rw [Scripted.unblock_eq] at hm hr ⊢
  exact Scripted.run_one_of_blocks hm hr rfl hp hk

theorem startEngine_of_free {c : Scheduler Scripted σ} (h : c.Disarmed)
    (hs : ¬ c.engine.Stuck c.store.set) :
    ∃ last, c.startEngine =
      c.engine.unblock.moveTo (c.engine.runFrom c.store.set) false last := by
  have hm := h.coherent.unblock
  have hr : c.engine.unblock.registered = .empty := by rw [Scripted.registered_unblock, h.clear]
  rw [startEngine_eq, Scripted.runFrom]
  rw [Scripted.unblock_eq] at hm hr ⊢
  cases ha : c.store.set.isArmedAt c.engine.instructionPointer with
  | false =>
      rw [if_neg (by simp), if_neg (by simp)]
      exact ⟨c.engine.last, by simp [Scripted.moveTo]⟩
  | true =>
      rw [if_pos rfl]
      rcases Nat.eq_or_lt_of_le h.coherent.position_le with hp | hp
      · rw [if_neg (by omega)]
        exact Scripted.run_one_of_end hm rfl hp
      · cases hk : c.engine.openBlocks.contains c.engine.position with
        | true => exact absurd ⟨hp, ha, hk⟩ hs
        | false =>
            rw [if_pos ⟨hp, rfl, rfl⟩]
            exact Scripted.run_one_of_open hm hr rfl hp hk

theorem settle_startEngine_of_stuck {c : Scheduler Scripted σ} (h : c.Disarmed)
    (hs : c.engine.Stuck c.store.set) :
    c.startEngine.settle c.store.set = c.engine.unblock.moveTo c.engine.position true none := by
  rw [startEngine_of_stuck h hs]
  rfl

theorem settle_startEngine_of_free {c : Scheduler Scripted σ} (h : c.Disarmed)
    (hs : ¬ c.engine.Stuck c.store.set) :
    let q := (c.engine.unblock.armed c.store.set).restFrom (c.engine.runFrom c.store.set)
    c.startEngine.settle c.store.set =
      c.engine.unblock.moveTo q
        ((c.engine.program[q]?).any fun a => !c.store.set.isArmedAt a)
        (if q = c.engine.program.size then some (.exit c.engine.exitCode) else none) := by
  intro q
  obtain ⟨last, he⟩ := startEngine_of_free h hs
  have hrest : c.startEngine.restAt c.store.set = q := by
    rw [he]
    apply Scripted.restFrom_unique (Scripted.le_restFrom _ _)
    · intro j h1 h2
      exact Scripted.isFree_of_lt_restFrom (e := c.engine.unblock.armed c.store.set) h1 h2
    · exact Scripted.isFree_restFrom (c.engine.unblock.armed c.store.set) _
  have hle : c.engine.unblock.position ≤ c.engine.runFrom c.store.set := by
    rw [Scripted.unblock_eq]
    exact c.engine.le_runFrom c.store.set
  have hq : c.engine.runFrom c.store.set ≤ q := Scripted.le_restFrom _ _
  clear_value q
  rw [Scripted.settle, hrest, he, Scripted.moveTo_moveTo hle hq, Scripted.unblock_eq]
  rfl

structure EndsAt (e : Scripted) (s : BreakpointSet) (q : Nat) (blocked : Bool) : Prop where
  le : e.position ≤ q
  le_size : q ≤ e.program.size
  stuck : e.Stuck s → q = e.position ∧ blocked = true
  least : ¬ e.Stuck s → IsLeast {j | e.runFrom s ≤ j ∧ e.Halts s j} q
  blocked_iff : ¬ e.Stuck s → (blocked = true ↔
    ∃ a, e.program[q]? = some a ∧ e.openBlocks.contains q = true ∧ s.isArmedAt a = false)

theorem exists_endsAt {c : Scheduler Scripted σ} (h : c.Disarmed) :
    ∃ q blocked, EndsAt c.engine c.store.set q blocked ∧
      c.startEngine.settle c.store.set = c.engine.unblock.moveTo q blocked
        (if q = c.engine.program.size then some (.exit c.engine.exitCode) else none) := by
  by_cases hs : c.engine.Stuck c.store.set
  · refine ⟨_, _, ⟨le_refl _, hs.1.le, fun _ => ⟨rfl, rfl⟩, fun hn => absurd hs hn,
      fun hn => absurd hs hn⟩, ?_⟩
    rw [settle_startEngine_of_stuck h hs, if_neg (Nat.ne_of_lt hs.1)]
  · have hl := c.engine.isLeast_restFrom h.coherent h.clear c.store.set
    refine ⟨_, _, ⟨?_, ?_, fun hy => absurd hy hs, fun _ => hl, fun _ => ?_⟩,
      settle_startEngine_of_free h hs⟩
    · exact (c.engine.le_runFrom c.store.set).trans hl.1.1
    · exact hl.2 ⟨Scripted.runFrom_le_size h.coherent c.store.set, .inl rfl⟩
    · generalize (c.engine.unblock.armed c.store.set).restFrom (c.engine.runFrom c.store.set) = q at hl
      obtain hq | ⟨a, hq⟩ := Option.eq_none_or_eq_some c.engine.program[q]?
      · simp [hq]
      · have hh := hl.1.2
        have hlt : q ≠ c.engine.program.size := by
          rintro rfl
          simp at hq
        simp only [Scripted.Halts, hlt, hq, false_or, Option.some.injEq, exists_eq_left'] at hh
        simp only [hq, Option.any_some, Option.some.injEq, exists_eq_left', Bool.not_eq_true']
        constructor
        · intro ha
          rcases hh with hh | hh
          · rw [ha] at hh; cases hh
          · exact ⟨hh, ha⟩
        · exact fun hb => hb.2

variable [Storage σ]

theorem settled_of_hit {c : Scheduler Scripted σ} {hit : Hit} {store : Store σ} {host : HostLog}
    (h : Arming.checkHit c.store (c.engine.settle c.store.set) c.host = (.ok hit, store, host)) :
    c.settled = { c.rested with
      engine := c.engine.settle c.store.set
      store
      lastHit := hit
      host := haltTold (c.engine.settle c.store.set).last host } := by
  simp only [settled, h]

theorem haltTold_ended (e : Scripted) (q : Nat) (blocked : Bool) (host : HostLog) :
    haltTold (e.ended q blocked).last host =
      host ++ if q = e.program.size then #[.exit e.exitCode] else #[] := by
  by_cases h : q = e.program.size <;> simp [Scripted.ended, haltTold, h]

structure RunMeaning (c d : Scheduler Scripted σ) (q : Nat) : Prop where
  idle : d.running = false
  drained : d.ticks = .queue 0 true ∧ d.tickPending = false
  endsAt : EndsAt c.engine c.store.set q d.engine.blocked
  position_eq : d.engine.position = q
  count_eq : d.engine.count = c.engine.count + (q - c.engine.position)
  blocks_eq : d.engine.blocks = c.engine.openBlocks
  exited_eq : d.engine.exited = decide (q = c.engine.program.size)
  pointer_eq : d.engine.instructionPointer = (c.engine.program[q]?).getD c.engine.endAddress
  hit_iff : d.lastHit ≠ .none ↔ c.store.set.isArmedAt d.engine.instructionPointer = true
  found : Arming.Found c.store d.engine.instructionPointer d.lastHit d.store
  told : d.host = c.host ++
    (if d.lastHit = .persistent d.engine.instructionPointer then #[.showTab breakpointsTab] else #[]) ++
    (if q = c.engine.program.size then #[.exit c.engine.exitCode] else #[])

theorem runMeaning_drive_start {c : Scheduler Scripted σ} (h : c.running = false) (hc : c.Chained)
    (hd : c.Disarmed) (hp : c.throughput.Paced)
    (hw : Storage.Accepts c.store.storage) :
    ∃ q, RunMeaning c c.start.drive.2 q := by
  obtain ⟨q, blocked, hends, hset⟩ := exists_endsAt hd
  have hu := unpaced_drive_start h hc hd hp
  have hstart : c.start.engine.settle c.start.store.set = c.startEngine.settle c.store.set := by
    rw [start_of_idle h]
  have hhost : c.start.host = c.host := by rw [start_of_idle h]
  obtain ⟨hit, store, hfound, hcheck⟩ :=
    Arming.exists_found c.start.store (c.start.engine.settle c.start.store.set) c.start.host
      (by rwa [start_store])
  rw [settled_of_hit hcheck, hstart, hset, hhost] at hu
  rw [hstart, hset, start_store] at hfound
  generalize c.start.drive.2 = d at hu
  have hcore : d.engine.core = (c.engine.ended q blocked).core := by
    rw [← Scripted.unblock_moveTo]
    exact congrArg Scheduler.engine hu
  have hhit : d.lastHit = hit := congrArg Scheduler.lastHit hu
  have hstore : d.store = store := congrArg Scheduler.store hu
  have hpointer : d.engine.instructionPointer = (c.engine.ended q blocked).instructionPointer := by
    rw [← Scripted.instructionPointer_core, hcore, Scripted.instructionPointer_core]
  have hblocked : d.engine.blocked = blocked := congrArg Scripted.blocked hcore
  have hexited : d.engine.exited = decide (q = c.engine.program.size) := by
    rw [← Scripted.exited_core, hcore, Scripted.exited_core, Scripted.exited_ended]
  rw [Scripted.unblock_moveTo] at hu hfound
  subst hhit hstore
  have hf : Arming.Found c.store d.engine.instructionPointer d.lastHit d.store := by
    rw [hpointer]
    exact hfound
  refine ⟨q, congrArg Scheduler.running hu,
    ⟨congrArg Scheduler.ticks hu, congrArg Scheduler.tickPending hu⟩, by rwa [hblocked],
    congrArg Scripted.position hcore, congrArg Scripted.count hcore, congrArg Scripted.blocks hcore,
    hexited, hpointer, hf.hit_iff, hf, ?_⟩
  have htold := congrArg Scheduler.host hu
  rw [hpointer]
  exact htold.trans (haltTold_ended c.engine q blocked _)

end Scheduler

namespace Session

variable {σ : Type} [Storage σ]

theorem disarmed_run {e : Scripted} (he : e.Reachable) (hr : e.registered = .empty) (key : String)
    (given : List (Address × String)) (storage : σ) (ticks : TickRequests) (config : SchedulerConfig)
    (w : Stopwatch) (ops : List Op) :
    ((create e key given storage ticks config w).run ops).scheduler.Disarmed :=
  kept_disarmed.run (s := create e key given storage ticks config w) ⟨he.coherent, hr⟩ ops

theorem runMeaning_drive {e : Scripted} (he : e.Reachable) (hr : e.registered = .empty) (key : String)
    (given : List (Address × String)) (storage : σ) {config : SchedulerConfig}
    (hc : DebuggerConfig.fault? config = none) (w : Stopwatch) (ops : List Op) :
    let s := (create e key given storage .channel config w).run ops
    s.scheduler.running = false →
    Storage.Accepts s.scheduler.store.storage →
    ∃ q, Scheduler.RunMeaning s.scheduler s.start.drive.2.scheduler q := by
  intro s hidle hw
  have hchained : s.scheduler.Chained :=
    kept_chained.run (s := create e key given storage .channel config w) ⟨⟨0, rfl, nofun⟩, nofun, nofun⟩ ops
  have hpaced : s.scheduler.throughput.Paced :=
    kept_paced.run (s := create e key given storage .channel config w) (Throughput.paced_ofConfig hc) ops
  have hdisarmed := disarmed_run he hr key given storage .channel config w ops
  exact Scheduler.runMeaning_drive_start hidle hchained hdisarmed hpaced hw

theorem runMeaning_drive_again :
    let s := (create (.ofProgram #[10, 20, 30, 20] [2] 7 .empty) "p" [] MemoryStorage.empty .channel
      .standard .still : Session Scripted MemoryStorage).run [.add (.standing 20), .start, .drive 5]
    s.scheduler.running = false ∧
      ∃ q, Scheduler.RunMeaning s.scheduler s.start.drive.2.scheduler q := by
  have he : (Scripted.ofProgram #[10, 20, 30, 20] [2] 7 .empty).Reachable := .ofProgram ..
  have hc : DebuggerConfig.fault? .standard = none := by decide +kernel
  have hidle : ((create (.ofProgram #[10, 20, 30, 20] [2] 7 .empty) "p" [] MemoryStorage.empty .channel
      .standard .still : Session Scripted MemoryStorage).run
        [.add (.standing 20), .start, .drive 5]).scheduler.running = false := by
    decide +kernel
  exact ⟨hidle, runMeaning_drive he rfl "p" [] MemoryStorage.empty hc .still
    [.add (.standing 20), .start, .drive 5] hidle (MemoryStorage.accepts _)⟩

end Session

end RunControl
