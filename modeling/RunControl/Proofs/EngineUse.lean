import RunControl.Proofs.NoOverrun
import RunControl.Proofs.Progress
import RunControl.Proofs.Target

namespace RunControl

inductive Use where
  | call (c : EngineCall)
  | disassemble (address : Address) (count : Nat)

namespace Engine

variable {ε : Type} [Engine ε]

def use (e : ε) : Use → ε
  | .call c => perform e c
  | .disassemble a n => (disassemble e a n).2

def useAll (us : List Use) (e : ε) : ε :=
  us.foldl use e

end Engine

namespace Scripted

variable {e : Scripted}

theorem Reachable.use (h : e.Reachable) (u : Use) : (Engine.use e u).Reachable := by
  cases u with
  | call c => exact .perform c h
  | disassemble a n => exact h

theorem Reachable.useAll (h : e.Reachable) (us : List Use) : (Engine.useAll us e).Reachable := by
  induction us generalizing e with
  | nil => exact h
  | cons u us ih => exact ih (h.use u)

theorem program_use (e : Scripted) (u : Use) : (Engine.use e u).program = e.program := by
  cases u with
  | disassemble a n => rfl
  | call c =>
      cases c with
      | run limit => exact (e.blocks_run limit).1
      | register a => rfl
      | clear a => rfl
      | unblock => exact e.program_unblock

theorem last_run (e : Scripted) (limit : Nat) : (e.run limit).2.last = some (e.run limit).1 := by
  simp only [run]
  split
  · assumption
  · assumption
  · split
    · rfl
    · simp only [runOn]
      split <;> rfl

theorem contains_blocks_unblock (e : Scripted) (p : Nat) :
    e.unblock.blocks.contains p = (e.blocks.contains p && !(e.blocked && decide (p = e.position))) := by
  rw [unblock_eq, openBlocks]
  cases e.blocked with
  | false => simp
  | true => simp [Table.contains_erase, Bool.and_comm]

theorem Coherent.use_of_exited (h : e.Coherent) (hx : e.exited = true) (u : Use) :
    ∃ r, Engine.use e u = { e with registered := r } := by
  cases u with
  | disassemble a n => exact ⟨e.registered, rfl⟩
  | call c =>
      cases c with
      | run limit => exact ⟨e.registered, congrArg Prod.snd (h.run_of_exited hx limit)⟩
      | register a => exact ⟨_, rfl⟩
      | clear a => exact ⟨_, rfl⟩
      | unblock =>
          have hnot : e.blocked = false := (exited_of_position_eq h hx).2.2
          refine ⟨e.registered, ?_⟩
          change e.unblock = e
          rw [Scripted.unblock, hnot, if_neg Bool.false_ne_true]

theorem program_useAll (us : List Use) (e : Scripted) : (Engine.useAll us e).program = e.program := by
  induction us generalizing e with
  | nil => rfl
  | cons u us ih => exact (ih _).trans (e.program_use u)

theorem Coherent.useAll_of_exited (h : e.Coherent) (hx : e.exited = true) (us : List Use) :
    ∃ r, Engine.useAll us e = { e with registered := r } := by
  induction us generalizing e with
  | nil => exact ⟨e.registered, rfl⟩
  | cons u us ih =>
      obtain ⟨r, hr⟩ := h.use_of_exited hx u
      have hfirst : Engine.useAll (u :: us) e = Engine.useAll us { e with registered := r } :=
        congrArg (Engine.useAll us) hr
      rw [hfirst]
      exact ih (h.withRegistered r) hx

structure AtRest (code : UInt32) (e d : Scripted) : Prop where
  position_eq : d.position = e.position
  count_eq : d.count = e.count
  instructionPointer_eq : d.instructionPointer = e.instructionPointer
  exits_again : ∀ limit, (d.run limit).1 = .exit code

theorem Coherent.atRest (h : e.Coherent) {code : UInt32} (hl : e.last = some (.exit code)) (us : List Use) :
    AtRest code e (Engine.useAll us e) := by
  have hx : e.exited = true := by rw [exited, hl]
  obtain ⟨r, hr⟩ := h.useAll_of_exited hx us
  rw [hr]
  refine ⟨rfl, rfl, rfl, fun limit => ?_⟩
  have hrun := (h.withRegistered r).run_of_exited hx limit
  rw [hrun, (h.end_of_exit code hl).2]

structure InUse (e d : Scripted) : Prop where
  program_eq : d.program = e.program
  count_eq : d.count = d.position
  position_le : d.position ≤ e.program.size
  waits_at_block : d.blocked = true → d.position < e.program.size ∧ d.blocks.contains d.position = true
  unblocked : ∀ p, d.unblock.blocks.contains p =
    (d.blocks.contains p && !(d.blocked && decide (p = d.position)))
  ended : ∀ code, d.last = some (.exit code) → d.position = e.program.size
  rests : ∀ limit code, (d.run limit).1 = .exit code →
    ∀ later, AtRest code (d.run limit).2 (Engine.useAll later (d.run limit).2)

theorem inUse_useAll (h : e.Fresh) (us : List Use) : InUse e (Engine.useAll us e) := by
  have hc := (h.reachable.useAll us).coherent
  have hp := program_useAll us e
  refine ⟨hp, hc.count_eq, ?_, fun hb => ⟨?_, hc.block_of_blocked hb⟩, contains_blocks_unblock _,
    fun code hl => ?_, fun limit code hrun later => ?_⟩
  · rw [← hp]
    exact hc.position_le
  · rw [← hp]
    exact hc.lt_of_blocked hb
  · rw [← hp]
    exact (hc.end_of_exit code hl).1
  · refine (hc.run limit).atRest ?_ later
    rw [last_run, hrun]

theorem inUse_useAll_to_exit :
    let e := ofProgram #[10, 20, 30] [1, 5] 7 .empty
    let waiting := [.call (.register 30), .call (.run 2), .disassemble 20 1]
    let d := Engine.useAll waiting e
    let done := waiting ++ [.call .unblock, .call (.clear 30), .call (.run 9)]
    (d.blocked = true ∧ d.position = 1 ∧ d.unblock.blocks.keys = [5] ∧
      (Engine.useAll done e).last = some (.exit 7)) ∧
      InUse e d ∧ InUse e (Engine.useAll done e) := by
  intro e waiting d done
  have he : e.Fresh := .ofProgram ..
  exact ⟨by decide +kernel, inUse_useAll he waiting, inUse_useAll he done⟩

end Scripted

end RunControl
