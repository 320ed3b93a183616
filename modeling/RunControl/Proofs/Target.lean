import RunControl.Proofs.Disabled
import RunControl.Proofs.Resuming
import RunControl.Proofs.TickChain

namespace RunControl

namespace BreakpointSet

def targeting (s : BreakpointSet) (a : Address) : BreakpointSet :=
  if s.contains a then s else s.put (.single a)

theorem at?_targeting_of_ne (s : BreakpointSet) {a k : Address} (h : k ≠ a) :
    (s.targeting a).at? k = s.at? k := by
  rw [targeting]
  split
  · rfl
  · rw [at?_put]
    exact if_neg h

theorem at?_targeting_self (s : BreakpointSet) (a : Address) :
    (s.targeting a).at? a = some ((s.at? a).getD (.single a)) := by
  rw [targeting, contains_eq_isSome_at?]
  cases h : s.at? a with
  | none => exact (s.at?_put (.single a) a).trans (if_pos rfl)
  | some b => exact h

theorem isArmedAt_targeting_of_ne (s : BreakpointSet) {a k : Address} (h : k ≠ a) :
    (s.targeting a).isArmedAt k = s.isArmedAt k := by
  rw [isArmedAt, isArmedAt, s.at?_targeting_of_ne h]

theorem isArmedAt_targeting_self (s : BreakpointSet) (a : Address) :
    (s.targeting a).isArmedAt a = (s.at? a).all Breakpoint.isEnabled := by
  rw [isArmedAt, at?_targeting_self]
  cases s.at? a with
  | none => rfl
  | some b => rfl

theorem eq_standing {s : BreakpointSet} {a : Address} {b : Breakpoint} (h : s.at? a = some b)
    (he : b.isEnabled = true) (ho : b.oneShot = false) : b = .standing a := by
  have ha := address_of_at? h
  obtain ⟨⟨disabled, oneShot⟩, address⟩ := b
  cases disabled with
  | true => cases he
  | false =>
      subst ha ho
      rfl

end BreakpointSet

namespace Scripted

def Unblocked (e : Scripted) : Prop :=
  ∀ i < e.program.size, e.blocks.contains i = false

theorem blocks_run (e : Scripted) (limit : Nat) :
    (e.run limit).2.program = e.program ∧ (e.run limit).2.blocks = e.blocks := by
  simp only [run]
  split
  · exact ⟨rfl, rfl⟩
  · exact ⟨rfl, rfl⟩
  · split
    · exact ⟨rfl, rfl⟩
    · simp only [runOn]
      split <;> exact ⟨rfl, rfl⟩

variable {e : Scripted} {s : BreakpointSet}

theorem Unblocked.openBlocks (h : e.Unblocked) {i : Nat} (hi : i < e.program.size) :
    e.openBlocks.contains i = false := by
  rw [Scripted.openBlocks]
  split
  · rw [Table.contains_erase, h i hi, Bool.and_false]
  · exact h i hi

theorem Unblocked.perform (h : e.Unblocked) (call : EngineCall) : (Engine.perform e call).Unblocked := by
  cases call with
  | run limit =>
      obtain ⟨hp, hb⟩ := e.blocks_run limit
      intro i hi
      have hrun : (e.run limit).2.blocks.contains i = false := by
        rw [hb]
        exact h i (hp ▸ hi)
      exact hrun
  | register a => exact h
  | clear a => exact h
  | unblock =>
      have hu : (e.unblock).Unblocked := by
        rw [unblock_eq]
        intro i hi
        exact h.openBlocks hi
      exact hu

theorem Unblocked.after (h : e.Unblocked) (blocks : List Block) : (Engine.after blocks e).Unblocked := by
  rw [Engine.after]
  induction blocks.flatMap Block.calls generalizing e with
  | nil => exact h
  | cons call calls ih => exact ih (h.perform call)

theorem Unblocked.not_stuck (h : e.Unblocked) (s : BreakpointSet) : ¬ e.Stuck s := by
  rintro ⟨hp, -, hk⟩
  rw [h.openBlocks hp] at hk
  cases hk

theorem Unblocked.halts_iff (h : e.Unblocked) {i : Nat} (hi : i < e.program.size) :
    e.Halts s i ↔ ∃ a, e.program[i]? = some a ∧ s.isArmedAt a = true := by
  simp only [Halts, h.openBlocks hi, Bool.false_eq_true, or_false, Nat.ne_of_lt hi, false_or]

structure ComesTo (e : Scripted) (s : BreakpointSet) (a : Address) (j : Nat) : Prop where
  first : IsLeast {i | e.position < i ∧ e.program[i]? = some a} j
  clear : ∀ i b, e.position < i → i < j → e.program[i]? = some b → s.isArmedAt b = false

variable {a : Address} {j : Nat}

theorem ComesTo.lt_size (h : e.ComesTo s a j) : j < e.program.size :=
  (Array.getElem?_eq_some_iff.mp h.first.1.2).1

theorem ComesTo.runFrom_le (h : e.ComesTo s a j) (t : BreakpointSet) : e.runFrom t ≤ j := by
  have hlt : e.position < j := h.first.1.1
  rw [runFrom]
  split
  · exact hlt
  · exact hlt.le

theorem ComesTo.not_halts (h : e.ComesTo s a j) (hu : e.Unblocked) {i : Nat}
    (hi : e.runFrom (s.targeting a) ≤ i) (hlt : i < j) : ¬ e.Halts (s.targeting a) i := by
  have hsize := hlt.trans h.lt_size
  rw [hu.halts_iff hsize]
  rintro ⟨b, hb, harmed⟩
  rcases Nat.eq_or_lt_of_le ((e.le_runFrom _).trans hi) with rfl | hpos
  · -- The run begins at a breakpoint that is here, and it gets off it.
    have hip : e.instructionPointer = b := by simp [instructionPointer, hb]
    rw [runFrom_of_not_stuck hsize (hip ▸ harmed) (hu.not_stuck _)] at hi
    exact absurd hi (Nat.not_succ_le_self _)
  · have hne : b ≠ a := by
      rintro rfl
      exact absurd (h.first.2 ⟨hpos, hb⟩) (Nat.not_le.mpr hlt)
    rw [s.isArmedAt_targeting_of_ne hne, h.clear i b hpos hlt hb] at harmed
    cases harmed

end Scripted

theorem Arming.Found.of_targeting {σ : Type} [Storage σ] {store d : Store σ} {s : BreakpointSet}
    {a : Address} {hit : Hit} (h : Found store a hit d) (hset : store.set = s.targeting a)
    (ha : (s.at? a).all Breakpoint.isEnabled = true) :
    hit = (if s.at? a = some (.standing a) then .persistent a else .transient a) ∧
      d.set.at? a = (if s.at? a = some (.standing a) then some (.standing a) else none) ∧
      ∀ k ≠ a, d.set.at? k = s.at? k := by
  have hself : store.set.at? a = some ((s.at? a).getD (.single a)) := by
    rw [hset, s.at?_targeting_self]
  have hother : ∀ k ≠ a, store.set.at? k = s.at? k := by
    intro k hk
    rw [hset, s.at?_targeting_of_ne hk]
  cases h with
  | missed hn =>
      rw [hset, s.isArmedAt_targeting_self, ha] at hn
      cases hn
  | @single b hb he ho =>
      have hne : s.at? a ≠ some (.standing a) := by
        intro hs
        rw [hself, hs] at hb
        cases hb
        cases ho
      rw [if_neg hne, if_neg hne]
      refine ⟨rfl, (store.set.at?_erase a a).trans (if_pos rfl), fun k hk => ?_⟩
      exact ((store.set.at?_erase a k).trans (if_neg hk)).trans (hother k hk)
  | @standing b hb he ho =>
      have hb' : store.set.at? a = some (.standing a) := by
        rw [hb, BreakpointSet.eq_standing hb he ho]
      have hs : s.at? a = some (.standing a) := by
        cases hs : s.at? a with
        | none =>
            rw [hself, hs] at hb'
            cases hb'
        | some b =>
            rw [hself, hs] at hb'
            exact hb'
      rw [if_pos hs, if_pos hs]
      exact ⟨rfl, hb', hother⟩

namespace Scheduler

variable {σ : Type} [Storage σ] {c d : Scheduler Scripted σ} {s : BreakpointSet} {a : Address} {j q : Nat}

theorem RunMeaning.isLeast (h : RunMeaning c d q) (hu : c.engine.Unblocked) :
    IsLeast {i | c.engine.runFrom c.store.set ≤ i ∧ c.engine.Halts c.store.set i} q :=
  h.endsAt.least (hu.not_stuck _)

theorem RunMeaning.le_of_comesTo (h : RunMeaning c d q) (hu : c.engine.Unblocked)
    (hset : c.store.set = s.targeting a) (hj : c.engine.ComesTo s a j) : j ≤ q := by
  obtain ⟨hfrom, hhalts⟩ := (h.isLeast hu).1
  rw [hset] at hfrom hhalts
  by_contra hlt
  exact hj.not_halts hu hfrom (Nat.not_le.mp hlt) hhalts

theorem RunMeaning.eq_of_comesTo (h : RunMeaning c d q) (hu : c.engine.Unblocked)
    (hset : c.store.set = s.targeting a) (hj : c.engine.ComesTo s a j)
    (ha : (s.at? a).all Breakpoint.isEnabled = true) : q = j := by
  have harmed : c.store.set.isArmedAt a = true := by
    rw [hset, s.isArmedAt_targeting_self, ha]
  have hhalts := (hu.halts_iff hj.lt_size).mpr ⟨a, hj.first.1.2, harmed⟩
  exact le_antisymm ((h.isLeast hu).2 ⟨hj.runFrom_le _, hhalts⟩) (h.le_of_comesTo hu hset hj)

theorem RunMeaning.lt_of_comesTo (h : RunMeaning c d q) (hu : c.engine.Unblocked)
    (hset : c.store.set = s.targeting a) (hj : c.engine.ComesTo s a j)
    (ha : (s.at? a).all Breakpoint.isEnabled = false) : j < q := by
  have hhalts := (h.isLeast hu).1.2
  refine lt_of_le_of_ne (h.le_of_comesTo hu hset hj) ?_
  rintro rfl
  obtain ⟨b, hb, harmed⟩ := (hu.halts_iff hj.lt_size).mp hhalts
  obtain rfl : a = b := Option.some.inj (hj.first.1.2.symm.trans hb)
  rw [hset, s.isArmedAt_targeting_self, ha] at harmed
  cases harmed

end Scheduler

namespace Session

variable {σ : Type} [Storage σ]

structure Arrives (s : Session Scripted σ) (a : Address) (j : Nat) (t : Session Scripted σ) : Prop where
  idle : t.scheduler.running = false
  position_eq : t.scheduler.engine.position = j
  pointer_eq : t.scheduler.engine.instructionPointer = a
  hit : t.scheduler.lastHit =
    if s.scheduler.store.set.at? a = some (.standing a) then .persistent a else .transient a
  own : t.scheduler.store.set.at? a =
    if s.scheduler.store.set.at? a = some (.standing a) then some (.standing a) else none
  others : ∀ k ≠ a, t.scheduler.store.set.at? k = s.scheduler.store.set.at? k

theorem runTo_of_accepts {s : Session Scripted σ}
    (h : Storage.AlwaysAccepts s.scheduler.store.storage) (a : Address) :
    (s.runTo a).1 = .ok () ∧ ∃ store : Store σ, Storage.Accepts store.storage ∧
      store.set = s.scheduler.store.set.targeting a ∧
      (s.runTo a).2 = ({ s with scheduler := s.scheduler.withStore store } : Session Scripted σ).start := by
  rw [runTo, BreakpointSet.targeting]
  cases hc : s.scheduler.store.set.contains a with
  | true => exact ⟨rfl, s.scheduler.store, h [], rfl, rfl⟩
  | false =>
      have hset := Store.set_add (h []) (.single a)
      have haccepts := Store.kept_alwaysAccepts.add h (.single a) []
      have hok : (s.scheduler.store.add (.single a)).1 = .ok () := by
        rw [Store.add_eq]
        exact (Store.commit_of_accepts (h []) _).1
      simp only [Bool.false_eq_true, if_false, add, edit]
      rcases hadd : s.scheduler.store.add (.single a) with ⟨r, store⟩
      rw [hadd] at hset haccepts hok
      subst hok
      exact ⟨rfl, store, haccepts, hset, rfl⟩

theorem arrives_of_runMeaning {s t : Session Scripted σ} {store : Store σ} {a : Address} {j : Nat}
    (h : Scheduler.RunMeaning (s.scheduler.withStore store) t.scheduler j)
    (hset : store.set = s.scheduler.store.set.targeting a) (hj : s.scheduler.engine.program[j]? = some a)
    (ha : (s.scheduler.store.set.at? a).all Breakpoint.isEnabled = true) : s.Arrives a j t := by
  have hip : t.scheduler.engine.instructionPointer = a := by
    rw [h.pointer_eq]
    exact congrArg (Option.getD · _) hj
  have hfound : Arming.Found store a t.scheduler.lastHit t.scheduler.store := hip ▸ h.found
  obtain ⟨hhit, hown, hothers⟩ := hfound.of_targeting hset ha
  exact ⟨h.idle, h.position_eq, hip, hhit, hown, hothers⟩

theorem arrives_runTo {e : Scripted} (he : e.Reachable) (hr : e.registered = .empty) (hu : e.Unblocked)
    (key : String) (given : List (Address × String)) (storage : σ) {config : SchedulerConfig}
    (hc : DebuggerConfig.fault? config = none) (w : Stopwatch) (ops : List Op) {a : Address} {j : Nat} :
    let s := (create e key given storage .channel config w).run ops
    let t := (s.runTo a).2.drive.2
    s.scheduler.running = false →
    Storage.AlwaysAccepts s.scheduler.store.storage →
    s.scheduler.engine.ComesTo s.scheduler.store.set a j →
    (s.runTo a).1 = .ok () ∧ (s.runTo a).2.DrivesTo t ∧
      if (s.scheduler.store.set.at? a).all Breakpoint.isEnabled then s.Arrives a j t
      else j < t.scheduler.engine.position := by
  intro s t hidle hw hj
  have hchained : s.scheduler.Chained := chained_run e key given storage config w ops
  have hdisarmed : s.scheduler.Disarmed := disarmed_run he hr key given storage .channel config w ops
  have hpaced : s.scheduler.throughput.Paced := paced_run e key given storage .channel hc w ops
  have hunblocked : s.scheduler.engine.Unblocked := by
    rw [engine_run]
    exact hu.after _
  obtain ⟨hok, store, haccepts, hset, hrun⟩ := runTo_of_accepts hw a
  obtain ⟨q, hmeaning⟩ := Scheduler.runMeaning_drive_start (c := s.scheduler.withStore store) hidle
    ⟨hchained.queue, hchained.pending, hchained.unhit⟩ ⟨hdisarmed.coherent, hdisarmed.clear⟩ hpaced haccepts
  have ht : t.scheduler = (s.scheduler.withStore store).start.drive.2 := by
    simp only [t, hrun]
    rfl
  rw [← ht] at hmeaning
  refine ⟨hok, drivesTo_of_takeTick? (Scheduler.takeTick?_of_empty hmeaning.drained.1), ?_⟩
  split
  · rename_i ha
    obtain rfl := hmeaning.eq_of_comesTo hunblocked hset hj ha
    exact arrives_of_runMeaning hmeaning hset hj.first.1.2 ha
  · rename_i ha
    rw [hmeaning.position_eq]
    exact hmeaning.lt_of_comesTo hunblocked hset hj (Bool.eq_false_of_not_eq_true ha)

theorem arrives_runTo_again :
    let s := (create (.ofProgram #[10, 20, 30, 20, 40] [] 0 .empty) "p" [] MemoryStorage.empty .channel
      .standard .still : Session Scripted MemoryStorage).run
        [.add (.standing 20), .add (.single 40), .start, .drive 5]
    let t := (s.runTo 20).2.drive.2
    (s.scheduler.running = false ∧ s.scheduler.engine.ComesTo s.scheduler.store.set 20 3) ∧
      (s.runTo 20).1 = .ok () ∧ (s.runTo 20).2.DrivesTo t ∧ s.Arrives 20 3 t := by
  intro s t
  have he : (Scripted.ofProgram #[10, 20, 30, 20, 40] [] 0 .empty).Reachable := .ofProgram ..
  have hu : (Scripted.ofProgram #[10, 20, 30, 20, 40] [] 0 .empty).Unblocked := fun _ _ => rfl
  have hc : DebuggerConfig.fault? .standard = none := by decide +kernel
  have hidle : s.scheduler.running = false := by decide +kernel
  have hprogram : s.scheduler.engine.program = #[10, 20, 30, 20, 40] := by decide +kernel
  have hposition : s.scheduler.engine.position = 1 := by decide +kernel
  have hj : s.scheduler.engine.ComesTo s.scheduler.store.set 20 3 := by
    refine ⟨⟨?_, ?_⟩, ?_⟩
    · exact ⟨by rw [hposition]; decide, by rw [hprogram]; rfl⟩
    · rintro i ⟨hi, ha⟩
      rw [hposition] at hi
      rw [hprogram] at ha
      by_contra hlt
      obtain rfl : i = 2 := by omega
      exact absurd ha (by decide)
    · intro i b hi hlt hb
      rw [hposition] at hi
      rw [hprogram] at hb
      obtain rfl : i = 2 := by omega
      obtain rfl : 30 = b := Option.some.inj hb
      decide +kernel
  have h := arrives_runTo he rfl hu "p" [] MemoryStorage.empty hc .still
    [.add (.standing 20), .add (.single 40), .start, .drive 5] hidle (MemoryStorage.alwaysAccepts _) hj
  exact ⟨⟨hidle, hj⟩, h.1, h.2.1, h.2.2⟩

theorem runTo_passes_disabled :
    let e := Scripted.ofProgram #[16, 17, 18] [] 0 .empty
    let s := (create e "p" [] MemoryStorage.empty .channel .standard .still :
      Session Scripted MemoryStorage).run [.add (.standing 17), .toggle 17]
    let t := (s.runTo 17).2.drive.2
    e.Unblocked ∧ DebuggerConfig.fault? .standard = none ∧ s.scheduler.running = false ∧
      s.scheduler.engine.ComesTo s.scheduler.store.set 17 1 ∧ (s.runTo 17).1 = .ok () ∧
      t.scheduler.engine.position = 3 ∧ t.scheduler.engine.instructionPointer = 19 ∧
      t.scheduler.lastHit = .none ∧ ¬ s.Arrives 17 1 t := by
  intro e s t
  have hprogram : s.scheduler.engine.program = #[16, 17, 18] := by decide +kernel
  have hposition : s.scheduler.engine.position = 0 := by decide +kernel
  have hend : t.scheduler.engine.position = 3 := by decide +kernel
  refine ⟨fun _ _ => rfl, by decide +kernel, by decide +kernel, ⟨⟨?_, ?_⟩, ?_⟩, by decide +kernel, hend,
    by decide +kernel, by decide +kernel, fun h => ?_⟩
  · exact ⟨by rw [hposition]; decide, by rw [hprogram]; rfl⟩
  · rintro i ⟨hi, -⟩
    rw [hposition] at hi
    exact hi
  · intro i b hi hlt hb
    rw [hposition] at hi
    omega
  · exact absurd (hend.symm.trans h.position_eq) (by decide)

end Session

end RunControl
