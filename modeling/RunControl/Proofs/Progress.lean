import Mathlib.Order.Interval.Finset.Nat
import RunControl.Proofs.BatchSize
import RunControl.Proofs.Pausing

namespace RunControl

namespace Scripted

inductive Fresh : Scripted → Prop
  | ofProgram (program : Array Address) (blocks : List Nat) (exitCode : UInt32)
      (symbols : SymbolTable) : Fresh (ofProgram program blocks exitCode symbols)
  | ofImage {name : String} {image : ByteArray} {e : Scripted} :
      ofImage name image = .ok e → Fresh e

theorem Fresh.reachable {e : Scripted} (h : e.Fresh) : e.Reachable := by
  cases h with
  | ofProgram program blocks exitCode symbols => exact .ofProgram program blocks exitCode symbols
  | ofImage h => exact .ofImage h

theorem Fresh.eq_beginning {e : Scripted} (h : e.Fresh) :
    e.position = 0 ∧ e.blocked = false ∧ e.registered = .empty := by
  cases h with
  | ofProgram => exact ⟨rfl, rfl, rfl⟩
  | ofImage h =>
      obtain ⟨trace, symbols, rfl⟩ := exists_of_ofImage h
      exact ⟨rfl, rfl, rfl⟩

def blocksInside (e : Scripted) : Finset Nat :=
  (Finset.range e.program.size).filter fun j => e.blocks.contains j = true

def blocksAhead (e : Scripted) : Finset Nat :=
  (Finset.Ico e.position e.program.size).filter fun j => e.openBlocks.contains j = true

def runsLeft (e : Scripted) : Nat :=
  e.program.size - e.position + e.blocksAhead.card

theorem Fresh.runsLeft_eq {e : Scripted} (h : e.Fresh) :
    e.runsLeft = e.program.size + e.blocksInside.card := by
  obtain ⟨hp, hb, -⟩ := h.eq_beginning
  simp only [runsLeft, blocksAhead, blocksInside, openBlocks, hp, hb, Nat.sub_zero,
    Bool.false_eq_true, if_false, Finset.range_eq_Ico]

theorem mem_blocksAhead {e : Scripted} {j : Nat} :
    j ∈ e.blocksAhead ↔
      (e.position ≤ j ∧ j < e.program.size) ∧ e.openBlocks.contains j = true := by
  simp only [blocksAhead, Finset.mem_filter, Finset.mem_Ico]

theorem contains_openBlocks_ended (e : Scripted) (q : Nat) (blocked : Bool) (j : Nat) :
    (e.ended q blocked).openBlocks.contains j = true ↔
      e.openBlocks.contains j = true ∧ (blocked = true → j ≠ q) := by
  have he : (e.ended q blocked).openBlocks =
      if blocked then e.openBlocks.erase q else e.openBlocks := rfl
  rw [he]
  cases blocked <;> simp [Table.contains_erase, and_comm]

theorem blocksAhead_ended_subset {e : Scripted} {q : Nat} (h : e.position ≤ q) (blocked : Bool) :
    (e.ended q blocked).blocksAhead ⊆ e.blocksAhead := by
  intro j hj
  obtain ⟨⟨hq, hlt⟩, hk⟩ := mem_blocksAhead.mp hj
  exact mem_blocksAhead.mpr ⟨⟨h.trans hq, hlt⟩, ((e.contains_openBlocks_ended q blocked j).mp hk).1⟩

end Scripted

namespace Scheduler

theorem EndsAt.block_of_eq {e : Scripted} {s : BreakpointSet} {blocked : Bool}
    (h : EndsAt e s e.position blocked) (hp : e.position < e.program.size) :
    blocked = true ∧ e.position ∈ e.blocksAhead := by
  rw [Scripted.mem_blocksAhead]
  by_cases hs : e.Stuck s
  · exact ⟨(h.stuck hs).2, ⟨le_refl _, hp⟩, hs.2.2⟩
  · obtain ⟨hfrom, hhalt⟩ := (h.least hs).1
    have hself : e.runFrom s = e.position := le_antisymm hfrom (e.le_runFrom s)
    have harmed : ∀ a, e.program[e.position]? = some a → s.isArmedAt a = false := by
      intro a ha
      have hip : e.instructionPointer = a := by simp [Scripted.instructionPointer, ha]
      by_contra hn
      have hon : s.isArmedAt e.instructionPointer = true := by simpa [hip] using hn
      rw [Scripted.runFrom_of_not_stuck hp hon hs] at hself
      omega
    have hget := Array.getElem?_eq_getElem hp
    have hopen : e.openBlocks.contains e.position = true := by
      rcases hhalt with hend | ⟨a, ha, hon⟩ | hopen
      · omega
      · rw [harmed a ha] at hon
        cases hon
      · exact hopen
    exact ⟨(h.blocked_iff hs).mpr ⟨_, hget, hopen, harmed _ hget⟩, ⟨le_refl _, hp⟩, hopen⟩

theorem EndsAt.runsLeft_lt {e : Scripted} {s : BreakpointSet} {q : Nat} {blocked : Bool}
    (h : EndsAt e s q blocked) (hq : q < e.program.size) : (e.ended q blocked).runsLeft < e.runsLeft := by
  have hsub := Scripted.blocksAhead_ended_subset h.le blocked
  have hcard := Finset.card_le_card hsub
  change e.program.size - q + (e.ended q blocked).blocksAhead.card <
    e.program.size - e.position + e.blocksAhead.card
  rcases Nat.eq_or_lt_of_le h.le with rfl | hlt
  · -- Nothing is executed, so the block that is met is the next one to be lifted.
    obtain ⟨rfl, hmem⟩ := h.block_of_eq hq
    have hlost : e.position ∉ (e.ended e.position true).blocksAhead := by
      intro hm
      have hk := (Scripted.mem_blocksAhead.mp hm).2
      exact ((e.contains_openBlocks_ended e.position true e.position).mp hk).2 rfl rfl
    have hless := Finset.card_lt_card (Finset.ssubset_iff_of_subset hsub |>.mpr ⟨_, hmem, hlost⟩)
    omega
  · omega

variable {σ : Type} [Storage σ]

theorem Ready.exists_ended {c : Scheduler Scripted σ} (h : c.Ready) (hr : c.running = false) :
    ∃ q blocked, EndsAt c.engine c.store.set q blocked ∧
      c.start.drive.2.engine.core = (c.engine.ended q blocked).core := by
  obtain ⟨q, blocked, hends, hset⟩ := exists_endsAt h.disarmed
  have hu := unpaced_drive_start hr h.chained h.disarmed h.paced
  have hstart : c.start.engine.settle c.start.store.set = c.startEngine.settle c.store.set := by
    rw [start_of_idle hr]
  have hcore : c.start.drive.2.engine.core = c.start.settled.engine.core :=
    congrArg (fun d => d.engine) hu
  -- A hit that cannot be settled leaves the engine where any other does.
  refine ⟨q, blocked, hends, ?_⟩
  rw [hcore, engine_settled, hstart, hset, Scripted.unblock_moveTo]

theorem Ready.idle_drive_start {c : Scheduler Scripted σ} (h : c.Ready) (hr : c.running = false) :
    c.start.drive.2.running = false := by
  have hu := unpaced_drive_start hr h.chained h.disarmed h.paced
  exact (congrArg (fun d => d.running) hu).trans c.start.idle_settled

structure Advances (e d : Scripted) : Prop where
  program_eq : d.program = e.program
  exited : e.exited = true → d.exited = true
  runsLeft_lt : d.exited = false → d.runsLeft < e.runsLeft

theorem Ready.advances {c : Scheduler Scripted σ} (h : c.Ready) (hr : c.running = false) :
    Advances c.engine c.start.drive.2.engine := by
  obtain ⟨q, blocked, hends, hcore⟩ := h.exists_ended hr
  generalize c.start.drive.2.engine = d at hcore
  have hexited : d.exited = decide (q = c.engine.program.size) := by
    rw [← Scripted.exited_core, hcore, Scripted.exited_core, Scripted.exited_ended]
  have hleft : d.core.runsLeft = (c.engine.ended q blocked).core.runsLeft := by rw [hcore]
  have hprogram : d.core.program = (c.engine.ended q blocked).core.program := by rw [hcore]
  refine ⟨hprogram, fun hx => ?_, fun hx => ?_⟩
  · have hp := (Scripted.exited_of_position_eq h.disarmed.coherent hx).1
    have hle := hends.le
    have hsize := hends.le_size
    rw [hexited, decide_eq_true_eq]
    omega
  · rw [hexited, decide_eq_false_iff_not] at hx
    exact hleft.trans_lt (hends.runsLeft_lt (Nat.lt_of_le_of_ne hends.le_size hx))

theorem takeTick?_drive_of_ready {c : Scheduler Scripted σ} (h : c.Ready) :
    c.drive.2.takeTick? = none := by
  have hd : c.driven.ticks = .queue 0 true := by
    simp only [driven]
    split
    · exact c.ticks_settled
    · rfl
  exact takeTick?_of_empty ((congrArg (fun d => d.ticks) (unpaced_drive_of_ready h)).trans hd)

theorem takeTick?_drive_of_chained {c : Scheduler Scripted σ} (hc : c.Chained) (hd : c.Disarmed)
    (hp : c.throughput.Paced) : c.drive.2.takeTick? = none := by
  cases hs : c.stopRequested with
  | false => exact takeTick?_drive_of_ready ⟨hs, hc, hd, hp⟩
  | true =>
      obtain ⟨n, hn, -⟩ := hc.queue
      have hl : c.ticksLeft = n + (c.engine.program.size - c.engine.position) + 1 := by
        simp only [ticksLeft, hn, TickRequests.waiting]
        rfl
      rw [drive, driveFor, hl]
      cases n with
      | zero =>
          have hn' := takeTick?_of_empty hn
          simp only [driveFrom, hn']
      | succ n =>
          have ht := tick_eq_stop (c := { c with ticks := .queue n true }) hs
          have hle : n ≤ n + 1 + (c.engine.program.size - c.engine.position) := by omega
          have hi := driveFrom_of_idle
            (c := { c with ticks := .queue n true, tickPending := false, running := false }) rfl rfl hle 1
          simp only [driveFrom, takeTick?_of_queue hn, ht]
          exact takeTick?_of_empty (congrArg (fun d => d.ticks) hi)

end Scheduler

namespace Session

variable {σ : Type} [Storage σ]

def rounds (s : Session Scripted σ) : Nat → Session Scripted σ
  | 0 => s
  | k + 1 => (s.rounds k).start.drive.2

theorem ready_rounds {s : Session Scripted σ} (h : s.scheduler.Ready)
    (hr : s.scheduler.running = false) (k : Nat) :
    (s.rounds k).scheduler.Ready ∧ (s.rounds k).scheduler.running = false := by
  induction k with
  | zero => exact ⟨h, hr⟩
  | succ k ih => exact ⟨ready_serve ih.1 .start, ih.1.idle_drive_start ih.2⟩

theorem rounds_advance {s : Session Scripted σ} (h : s.scheduler.Ready)
    (hr : s.scheduler.running = false) (k : Nat) :
    let e := s.scheduler.engine
    let d := (s.rounds k).scheduler.engine
    d.program = e.program ∧ (d.exited = true ∨ d.runsLeft + k ≤ e.runsLeft) := by
  induction k with
  | zero => exact ⟨rfl, .inr (le_refl _)⟩
  | succ k ih =>
      obtain ⟨hready, hidle⟩ := ready_rounds h hr k
      have hadv : Scheduler.Advances (s.rounds k).scheduler.engine (s.rounds (k + 1)).scheduler.engine :=
        hready.advances hidle
      refine ⟨hadv.program_eq.trans ih.1, ?_⟩
      rcases ih.2 with hx | hleft
      · exact .inl (hadv.exited hx)
      · cases hx : (s.rounds (k + 1)).scheduler.engine.exited with
        | true => exact .inl rfl
        | false =>
            have hlt := hadv.runsLeft_lt hx
            exact .inr (by omega)

theorem exited_rounds {e : Scripted} (he : e.Fresh) (key : String) (given : List (Address × String))
    (storage : σ) {config : SchedulerConfig} (hc : DebuggerConfig.fault? config = none) (w : Stopwatch) :
    let s := create e key given storage .channel config w
    (∀ ops, (s.run ops).DrivesTo (s.run ops).drive.2) ∧
      (∀ k, (s.rounds k).start.DrivesTo (s.rounds (k + 1))) ∧
      ∀ k, e.program.size + e.blocksInside.card + 1 ≤ k →
        (s.rounds k).scheduler.engine.exited = true ∧
          (s.rounds k).scheduler.engine.count = e.program.size := by
  intro s
  have hclear := he.eq_beginning.2.2
  have hready : s.scheduler.Ready := ready_create he.reachable hclear key given storage hc w
  refine ⟨fun ops => ?_, fun k => ?_, fun k hk => ?_⟩
  · exact drivesTo_of_takeTick? (Scheduler.takeTick?_drive_of_chained
      (chained_run e key given storage config w ops)
      (disarmed_run he.reachable hclear key given storage .channel config w ops)
      (paced_run e key given storage .channel hc w ops))
  · have hstart := ready_handle (ready_rounds hready rfl k).1 .start
    exact drivesTo_of_takeTick? (Scheduler.takeTick?_drive_of_ready hstart)
  · obtain ⟨hprogram, hleft⟩ := rounds_advance hready rfl k
    have hbound : s.scheduler.engine.runsLeft = e.program.size + e.blocksInside.card := he.runsLeft_eq
    have hx : (s.rounds k).scheduler.engine.exited = true := by
      rcases hleft with hx | hleft
      · exact hx
      · omega
    have hcoherent := (ready_rounds hready rfl k).1.disarmed.coherent
    refine ⟨hx, ?_⟩
    rw [hcoherent.count_eq, (Scripted.exited_of_position_eq hcoherent hx).1, hprogram]
    rfl

theorem exited_rounds_refused :
    let e := Scripted.ofProgram #[16, 17] [0, 1, 2] 0 .empty
    let stored := "[\x7b\"address\":16\x7d,\x7b\"address\":17,\"oneShot\":true\x7d]"
    let s := create e "p" [] (⟨.ofList [("p", stored)], 0, List.range 9⟩ : FlakyStorage) .channel
      .standard .still
    s.breakpoints = [.standing 16, .single 17] ∧ (s.rounds 3).scheduler.engine.exited = false ∧
      (e.Fresh ∧ DebuggerConfig.fault? .standard = none ∧
        e.program.size + e.blocksInside.card + 1 ≤ 5) ∧
      (s.rounds 5).scheduler.engine.exited = true ∧
        (s.rounds 5).scheduler.engine.count = e.program.size := by
  intro e stored
  have he : e.Fresh := .ofProgram ..
  have hc : DebuggerConfig.fault? .standard = none := by decide +kernel
  have hk : e.program.size + e.blocksInside.card + 1 ≤ 5 := by decide +kernel
  have h := exited_rounds he "p" [] (⟨.ofList [("p", stored)], 0, List.range 9⟩ : FlakyStorage) hc .still
  exact ⟨by decide +kernel, by decide +kernel, ⟨he, hc, hk⟩, h.2.2 5 hk⟩

end Session

end RunControl
