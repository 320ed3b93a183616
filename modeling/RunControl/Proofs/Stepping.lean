import RunControl.Proofs.Progress
import RunControl.Proofs.Splitting

namespace RunControl

namespace Scripted

def blocksBelow (e : Scripted) (q : Nat) : Finset Nat :=
  (Finset.range q).filter fun j => e.blocks.contains j = true

def stepsTo (e : Scripted) (q : Nat) : Nat :=
  q + (e.blocksBelow q).card

theorem stepsTo_succ (e : Scripted) (q : Nat) :
    e.stepsTo (q + 1) = e.stepsTo q + if e.blocks.contains q then 2 else 1 := by
  simp only [stepsTo, blocksBelow, Finset.range_add_one, Finset.filter_insert]
  cases e.blocks.contains q with
  | false => simp only [Bool.false_eq_true, if_false]; omega
  | true =>
      rw [if_pos rfl, if_pos rfl, Finset.card_insert_of_notMem (by simp)]
      omega

theorem stepsTo_strictMono (e : Scripted) : StrictMono e.stepsTo := by
  apply strictMono_nat_of_lt_succ
  intro q
  rw [stepsTo_succ]
  split <;> omega

theorem exists_stepsTo (e : Scripted) {k n : Nat} (hk : k < e.stepsTo n) :
    ∃ q < n, k = e.stepsTo q ∨ (e.blocks.contains q = true ∧ k = e.stepsTo q + 1) := by
  induction n with
  | zero => exact absurd hk (by simp [stepsTo, blocksBelow])
  | succ n ih =>
      by_cases hlt : k < e.stepsTo n
      · obtain ⟨q, hq, hcases⟩ := ih hlt
        exact ⟨q, hq.trans n.lt_succ_self, hcases⟩
      · rw [stepsTo_succ] at hk
        refine ⟨n, n.lt_succ_self, ?_⟩
        cases hb : e.blocks.contains n with
        | false =>
            rw [hb, if_neg Bool.false_ne_true] at hk
            exact .inl (by omega)
        | true =>
            rw [hb, if_pos rfl] at hk
            rcases Nat.eq_or_lt_of_le (Nat.not_lt.mp hlt) with heq | hgt
            · exact .inl heq.symm
            · exact .inr ⟨rfl, by omega⟩

structure BroughtTo (e : Scripted) (q : Nat) (met : Bool) (d : Scripted) : Prop where
  coherent : d.Coherent
  clear : d.registered = .empty
  program_eq : d.program = e.program
  exitCode_eq : d.exitCode = e.exitCode
  position_eq : d.position = q
  blocked_eq : d.blocked = met
  blocks_eq : ∀ j, q ≤ j → d.blocks.contains j = e.blocks.contains j

theorem Fresh.broughtTo {e : Scripted} (h : e.Fresh) : e.BroughtTo 0 false e := by
  obtain ⟨hp, hb, hr⟩ := h.eq_beginning
  exact ⟨h.reachable.coherent, hr, rfl, rfl, hp, hb, fun _ _ => rfl⟩

def stateAfter (e : Scripted) (q : Nat) : CpuState :=
  if q + 1 = e.program.size then .exit e.exitCode else .running

theorem stateAfter_ne_blocked (e : Scripted) (q : Nat) : e.stateAfter q ≠ .blocked := by
  unfold stateAfter
  split
  · exact CpuState.noConfusion
  · exact CpuState.noConfusion

theorem stateAfter_of_ne {e : Scripted} {q : Nat} (h : q + 1 ≠ e.program.size) :
    e.stateAfter q = .running :=
  if_neg h

variable {e d : Scripted} {q : Nat}

theorem BroughtTo.meets (h : e.BroughtTo q false d) (hq : q < e.program.size)
    (hk : e.blocks.contains q = true) :
    (d.unblock.run 1).1 = .blocked ∧ e.BroughtTo q true (d.unblock.run 1).2 := by
  have hu : d.unblock = d := by simp [unblock, h.blocked_eq]
  have hp : d.position < d.program.size := by rw [h.position_eq, h.program_eq]; exact hq
  have hc := h.coherent.run 1
  rw [hu]
  rw [h.coherent.run_one h.clear h.blocked_eq hp, h.position_eq, h.blocks_eq q le_rfl, if_pos hk] at hc ⊢
  exact ⟨rfl, hc, h.clear, h.program_eq, h.exitCode_eq, rfl, rfl, h.blocks_eq⟩

theorem BroughtTo.contains_openBlocks {met : Bool} (h : e.BroughtTo q met d) {j : Nat} (hj : q ≤ j) :
    d.openBlocks.contains j = (!(met && decide (j = q)) && e.blocks.contains j) := by
  rw [openBlocks, h.blocked_eq]
  cases met with
  | false => exact h.blocks_eq j hj
  | true =>
      rw [if_pos rfl, Table.contains_erase, h.position_eq, h.blocks_eq j hj, Bool.true_and]

theorem BroughtTo.advances {met : Bool} (h : e.BroughtTo q met d) (hq : q < e.program.size)
    (hk : met = e.blocks.contains q) :
    (d.unblock.run 1).1 = e.stateAfter q ∧ e.BroughtTo (q + 1) false (d.unblock.run 1).2 := by
  have hu := h.coherent.unblock
  have hr : d.unblock.registered = .empty := by rw [registered_unblock, h.clear]
  have hc := hu.run 1
  have hp : d.position < d.program.size := by rw [h.position_eq, h.program_eq]; exact hq
  have hopen : d.openBlocks.contains d.position = false := by
    rw [h.position_eq, h.contains_openBlocks le_rfl, hk]
    cases e.blocks.contains q <;> simp
  rw [unblock_eq] at hu hr hc ⊢
  rw [hu.run_one hr rfl hp, if_neg (by simpa using hopen)] at hc ⊢
  refine ⟨?_, hc, h.clear, h.program_eq, h.exitCode_eq, congrArg (· + 1) h.position_eq, rfl, ?_⟩
  · show (if d.position + 1 = d.program.size then CpuState.exit d.exitCode else .running) = _
    rw [h.position_eq, h.program_eq, h.exitCode_eq, stateAfter]
  · intro j hj
    show d.openBlocks.contains j = _
    rw [h.contains_openBlocks (Nat.le_of_succ_le hj), decide_eq_false (by omega), Bool.and_false]
    rfl

end Scripted

namespace Scheduler

variable {ε σ : Type} [Engine ε]

def stepped (c : Scheduler ε σ) : Nat → Scheduler ε σ
  | 0 => c
  | k + 1 => (c.stepped k).singleStep.2

def stepReply (c : Scheduler ε σ) (k : Nat) : CpuState :=
  (c.stepped k).singleStep.1

structure StepsOn (c : Scheduler Scripted σ) (q : Nat) : Prop where
  meets : c.engine.blocks.contains q = true → c.stepReply (c.engine.stepsTo q) = .blocked ∧
    c.engine.BroughtTo q true (c.stepped (c.engine.stepsTo q + 1)).engine
  leaves : c.stepReply (c.engine.stepsTo (q + 1) - 1) = c.engine.stateAfter q
  arrives : c.engine.BroughtTo (q + 1) false (c.stepped (c.engine.stepsTo (q + 1))).engine

theorem stepsOn {c : Scheduler Scripted σ} {q : Nat}
    (h : c.engine.BroughtTo q false (c.stepped (c.engine.stepsTo q)).engine)
    (hq : q < c.engine.program.size) : c.StepsOn q := by
  have hnext := c.engine.stepsTo_succ q
  cases hk : c.engine.blocks.contains q with
  | false =>
      rw [hk, if_neg Bool.false_ne_true] at hnext
      obtain ⟨hreply, hadv⟩ := h.advances hq hk.symm
      refine ⟨fun hn => absurd (hk.symm.trans hn) Bool.false_ne_true, ?_, ?_⟩
      · rw [hnext]
        exact hreply
      · rw [hnext]
        exact hadv
  | true =>
      rw [hk, if_pos rfl] at hnext
      have hmeets := h.meets hq hk
      obtain ⟨hreply, hadv⟩ := hmeets.2.advances hq hk.symm
      refine ⟨fun _ => hmeets, ?_, ?_⟩
      · rw [hnext]
        exact hreply
      · rw [hnext]
        exact hadv

theorem broughtTo_stepped {c : Scheduler Scripted σ} (h : c.engine.Fresh) {q : Nat}
    (hq : q ≤ c.engine.program.size) :
    c.engine.BroughtTo q false (c.stepped (c.engine.stepsTo q)).engine := by
  induction q with
  | zero => exact h.broughtTo
  | succ q ih => exact (stepsOn (ih (Nat.le_of_succ_le hq)) hq).arrives

theorem StepsOn.of_fresh {c : Scheduler Scripted σ} (h : c.engine.Fresh) {q : Nat}
    (hq : q < c.engine.program.size) : c.StepsOn q :=
  stepsOn (broughtTo_stepped h hq.le) hq

inductive StepDoes (c : Scheduler Scripted σ) (k : Nat) : Prop
  | meets {q : Nat} (inside : q ∈ c.engine.blocksInside) (eq : k = c.engine.stepsTo q)
      (reply : c.stepReply k = .blocked) (before : c.engine.BroughtTo q false (c.stepped k).engine)
      (after : c.engine.BroughtTo q true (c.stepped (k + 1)).engine)
  | executes {q : Nat} {met : Bool} (inside : q < c.engine.program.size)
      (eq : k + 1 = c.engine.stepsTo (q + 1)) (reply : c.stepReply k = c.engine.stateAfter q)
      (before : c.engine.BroughtTo q met (c.stepped k).engine)
      (after : c.engine.BroughtTo (q + 1) false (c.stepped (k + 1)).engine)

theorem stepDoes {c : Scheduler Scripted σ} (h : c.engine.Fresh) {k : Nat}
    (hk : k < c.engine.stepsTo c.engine.program.size) : c.StepDoes k := by
  obtain ⟨q, hq, hcases⟩ := c.engine.exists_stepsTo hk
  have hon := StepsOn.of_fresh h hq
  have hnext := c.engine.stepsTo_succ q
  have hat := broughtTo_stepped h hq.le
  cases hb : c.engine.blocks.contains q with
  | false =>
      rw [hb, if_neg Bool.false_ne_true] at hnext
      rcases hcases with rfl | ⟨hn, -⟩
      · have hreply := hon.leaves
        have hafter := hon.arrives
        rw [hnext] at hreply hafter
        exact .executes hq hnext.symm hreply hat hafter
      · exact absurd (hb.symm.trans hn) Bool.false_ne_true
  | true =>
      rw [hb, if_pos rfl] at hnext
      obtain ⟨hreply, hmet⟩ := hon.meets hb
      rcases hcases with rfl | ⟨-, rfl⟩
      · have hin : q ∈ c.engine.blocksInside := Finset.mem_filter.mpr ⟨Finset.mem_range.mpr hq, hb⟩
        exact .meets hin rfl hreply hat hmet
      · have hreply := hon.leaves
        have hafter := hon.arrives
        rw [hnext] at hreply hafter
        exact .executes hq hnext.symm hreply hmet hafter

structure StepsThrough (c : Scheduler Scripted σ) (total : Nat) : Prop where
  exits : (c.stepped total).lastState = some (.exit c.engine.exitCode)
  count_eq : (c.stepped total).engine.count = c.engine.program.size
  underway : ∀ k, k + 1 < total → c.stepReply k = .running ∨ c.stepReply k = .blocked
  moves : ∀ k, k < total →
    (c.stepReply k = .blocked ∧
      (c.stepped (k + 1)).engine.position = (c.stepped k).engine.position ∧
      (c.stepped (k + 1)).engine.count = (c.stepped k).engine.count) ∨
    (c.stepReply k ≠ .blocked ∧
      (c.stepped (k + 1)).engine.position = (c.stepped k).engine.position + 1 ∧
      (c.stepped (k + 1)).engine.count = (c.stepped k).engine.count + 1)
  meets_iff : ∀ k, k < total →
    (c.stepReply k = .blocked ↔ ∃ q ∈ c.engine.blocksInside, k = c.engine.stepsTo q)
  arrives : ∀ q, q ≤ c.engine.program.size →
    IsLeast {k | (c.stepped k).engine.position = q} (q + (c.engine.blocksBelow q).card)

theorem StepDoes.moves {c : Scheduler Scripted σ} {k : Nat} (h : c.StepDoes k) :
    (c.stepReply k = .blocked ∧
      (c.stepped (k + 1)).engine.position = (c.stepped k).engine.position ∧
      (c.stepped (k + 1)).engine.count = (c.stepped k).engine.count) ∨
    (c.stepReply k ≠ .blocked ∧
      (c.stepped (k + 1)).engine.position = (c.stepped k).engine.position + 1 ∧
      (c.stepped (k + 1)).engine.count = (c.stepped k).engine.count + 1) := by
  cases h with
  | meets inside eq reply before after =>
      rw [before.coherent.count_eq, after.coherent.count_eq, before.position_eq, after.position_eq]
      exact .inl ⟨reply, rfl, rfl⟩
  | executes inside eq reply before after =>
      rw [before.coherent.count_eq, after.coherent.count_eq, before.position_eq, after.position_eq, reply]
      exact .inr ⟨c.engine.stateAfter_ne_blocked _, rfl, rfl⟩

theorem StepDoes.underway {c : Scheduler Scripted σ} {k : Nat} (h : c.StepDoes k)
    (hk : k + 1 < c.engine.stepsTo c.engine.program.size) :
    c.stepReply k = .running ∨ c.stepReply k = .blocked := by
  cases h with
  | meets inside eq reply before after => exact .inr reply
  | executes inside eq reply before after =>
      refine .inl (reply.trans (Scripted.stateAfter_of_ne fun hlast => ?_))
      rw [eq, hlast] at hk
      exact absurd hk (Nat.lt_irrefl _)

theorem StepDoes.meets_of_blocked {c : Scheduler Scripted σ} {k : Nat} (h : c.StepDoes k)
    (hb : c.stepReply k = .blocked) : ∃ q ∈ c.engine.blocksInside, k = c.engine.stepsTo q := by
  cases h with
  | meets inside eq reply before after => exact ⟨_, inside, eq⟩
  | executes inside eq reply before after =>
      exact absurd (reply.symm.trans hb) (c.engine.stateAfter_ne_blocked _)

theorem lastState_stepped {c : Scheduler Scripted σ} (h : c.engine.Fresh)
    (hn : 0 < c.engine.program.size) :
    (c.stepped (c.engine.stepsTo c.engine.program.size)).lastState = some (.exit c.engine.exitCode) := by
  obtain ⟨q, hq⟩ := Nat.exists_eq_add_one_of_ne_zero hn.ne'
  have hlast := (StepsOn.of_fresh h (by omega : q < c.engine.program.size)).leaves
  obtain ⟨k, hk⟩ : ∃ k, c.engine.stepsTo (q + 1) = k + 1 :=
    Nat.exists_eq_add_one_of_ne_zero
      (Nat.ne_of_gt (Nat.zero_lt_of_lt (c.engine.stepsTo_strictMono q.lt_succ_self)))
  rw [hk, Nat.add_sub_cancel, Scripted.stateAfter, if_pos hq.symm] at hlast
  rw [hq, hk]
  exact congrArg some hlast

theorem isLeast_stepsTo {c : Scheduler Scripted σ} (h : c.engine.Fresh) {q : Nat}
    (hq : q ≤ c.engine.program.size) :
    IsLeast {k | (c.stepped k).engine.position = q} (c.engine.stepsTo q) := by
  refine ⟨(broughtTo_stepped h hq).position_eq, fun k hk => ?_⟩
  by_contra hlt
  obtain ⟨p, hp, hcases⟩ := c.engine.exists_stepsTo (Nat.not_le.mp hlt)
  have hon := StepsOn.of_fresh h (hp.trans_le hq)
  have hpos : (c.stepped k).engine.position = p := by
    rcases hcases with rfl | ⟨hb, rfl⟩
    · exact (broughtTo_stepped h (hp.trans_le hq).le).position_eq
    · exact (hon.meets hb).2.position_eq
  exact absurd (hpos.symm.trans hk) (Nat.ne_of_lt hp)

theorem stepsThrough_of_fresh {c : Scheduler Scripted σ} (h : c.engine.Fresh)
    (hn : 0 < c.engine.program.size) :
    c.StepsThrough (c.engine.program.size + c.engine.blocksInside.card) where
  exits := lastState_stepped h hn
  count_eq := by
    have hend := broughtTo_stepped h le_rfl
    exact hend.coherent.count_eq.trans hend.position_eq
  underway k hk := (stepDoes h (Nat.lt_of_succ_lt hk)).underway hk
  moves k hk := (stepDoes h hk).moves
  meets_iff k hk := by
    refine ⟨(stepDoes h hk).meets_of_blocked, ?_⟩
    rintro ⟨q, hq, rfl⟩
    obtain ⟨hlt, hb⟩ := Finset.mem_filter.mp hq
    exact ((StepsOn.of_fresh h (Finset.mem_range.mp hlt)).meets hb).1
  arrives _ hq := isLeast_stepsTo h hq

theorem stepsThrough_of_fresh_blocked :
    let s := (Session.create (.ofProgram #[10, 20, 10] [0, 2, 3] 7 .empty) "p" [] MemoryStorage.empty .channel
      .standard .still : Session Scripted MemoryStorage).run [.add (.standing 10), .add (.single 20)]
    let c := s.scheduler
    (c.engine.Fresh ∧ 0 < c.engine.program.size ∧
        c.engine.program.size + c.engine.blocksInside.card = 5 ∧
        (List.range 6).map c.stepReply = [.blocked, .running, .running, .blocked, .exit 7, .exit 7]) ∧
      c.StepsThrough 5 := by
  intro s c
  have he : c.engine.Fresh := .ofProgram #[10, 20, 10] [0, 2, 3] 7 .empty
  have hn : 0 < c.engine.program.size := by decide +kernel
  have htotal : c.engine.program.size + c.engine.blocksInside.card = 5 := by decide +kernel
  have hwalk := stepsThrough_of_fresh he hn
  rw [htotal] at hwalk
  exact ⟨⟨he, hn, htotal, by decide +kernel⟩, hwalk⟩

end Scheduler

end RunControl
