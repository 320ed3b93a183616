import RunControl.Proofs.Refusal

namespace RunControl

namespace BreakpointSet

def singles (s : BreakpointSet) (a : Address) : Nat :=
  if (s.at? a).any (·.oneShot) then 1 else 0

theorem singles_put (s : BreakpointSet) (b : Breakpoint) (a : Address) :
    (s.put b).singles a = if a = b.address then (if b.oneShot then 1 else 0) else s.singles a := by
  simp only [singles, at?_put]
  split
  · rw [Option.any_some]
  · rfl

theorem singles_erase (s : BreakpointSet) (k a : Address) :
    singles (s.erase k) a = if a = k then 0 else s.singles a := by
  simp only [singles, at?_erase]
  split
  · rfl
  · rfl

theorem eq_single_of_at? {s : BreakpointSet} {a : Address} {b : Breakpoint} (h : s.at? a = some b)
    (he : b.isEnabled = true) (ho : b.oneShot = true) : b = .single a := by
  obtain rfl := address_of_at? h
  obtain ⟨⟨disabled, oneShot⟩, a⟩ := b
  obtain rfl : disabled = false := by simpa [Breakpoint.isEnabled] using he
  obtain rfl : oneShot = true := ho
  rfl

theorem singles_of_at? {s : BreakpointSet} {a : Address} (h : s.at? a = some (.single a)) :
    s.singles a = 1 := by
  simp only [singles, h]
  rfl

end BreakpointSet

namespace Store

variable {σ : Type} [Storage σ]

def issued (s : Store σ) (b : Breakpoint) : List Address :=
  match (s.add b).1 with
  | .ok () => if b.oneShot then [b.address] else []
  | .error _ => []

theorem commit_set (s : Store σ) (set : BreakpointSet) :
    ((s.commit set).1 = .ok () ∧ (s.commit set).2.set = set) ∨
      ((∃ e, (s.commit set).1 = .error e) ∧ (s.commit set).2.set = s.set) := by
  rw [commit_eq]
  rcases Storage.set s.storage s.key set.text with ⟨fault | u, storage⟩
  · exact .inr ⟨⟨_, rfl⟩, rfl⟩
  · exact .inl ⟨rfl, rfl⟩

theorem singles_add (s : Store σ) (b : Breakpoint) (a : Address) :
    (s.add b).2.set.singles a ≤ s.set.singles a + (s.issued b).count a := by
  simp only [issued, add_eq]
  rcases s.commit_set (s.set.put b) with ⟨hr, hset⟩ | ⟨⟨e, hr⟩, hset⟩
  · rw [hset, hr, BreakpointSet.singles_put]
    split
    · rename_i ha
      subst ha
      cases b.oneShot <;> simp
    · exact Nat.le_add_right _ _
  · rw [hset]
    exact Nat.le_add_right _ _

theorem singles_remove (s : Store σ) (k a : Address) : (s.remove k).2.set.singles a ≤ s.set.singles a := by
  simp only [remove_eq]
  split
  · rcases s.commit_set (s.set.erase k) with ⟨-, hset⟩ | ⟨-, hset⟩
    · rw [hset, BreakpointSet.singles_erase]
      split
      · exact Nat.zero_le _
      · exact le_refl _
    · rw [hset]
  · exact le_refl _

theorem singles_toggle (s : Store σ) (k a : Address) : (s.toggle k).2.set.singles a = s.set.singles a := by
  simp only [toggle_eq]
  cases hb : s.set.at? k with
  | none => rfl
  | some b =>
      rcases s.commit_set (s.set.put { b with disabled := !b.disabled }) with ⟨-, hset⟩ | ⟨-, hset⟩
      · -- The breakpoint stays one-shot, or stays none.
        rw [hset, BreakpointSet.singles_put]
        split
        · rename_i ha
          have hk : a = k := ha.trans (show b.address = k from BreakpointSet.address_of_at? hb)
          rw [BreakpointSet.singles, hk, hb, Option.any_some]
        · rfl
      · rw [hset]

end Store

namespace Arming

variable {ε σ : Type} [Engine ε] [Storage σ]

inductive Checked (s : Store σ) (a : Address) (host : HostLog) :
    Except Error Hit × Store σ × HostLog → Prop
  | missed (h : s.set.isArmedAt a = false) : Checked s a host (.ok .none, s, host)
  | standing {b : Breakpoint} (h : s.set.at? a = some b) (he : b.isEnabled = true)
      (ho : b.oneShot = false) :
      Checked s a host (.ok (.persistent a), s, host.push (.showTab breakpointsTab))
  | spent {storage : σ} (h : s.set.at? a = some (.single a))
      (hw : Storage.set s.storage s.key (BreakpointSet.text (s.set.erase a)) = (.ok (), storage)) :
      Checked s a host (.ok (.transient a), { s with set := s.set.erase a, storage }, host)
  | unsaved {fault : StorageFault} {storage : σ} (h : s.set.at? a = some (.single a))
      (hw : Storage.set s.storage s.key (BreakpointSet.text (s.set.erase a)) = (.error fault, storage)) :
      Checked s a host (.error (.storage fault), { s with storage }, host)

theorem checked_checkHit (s : Store σ) (e : ε) (host : HostLog) :
    Checked s (Engine.instructionPointer e) host (checkHit s e host) := by
  cases ha : s.set.isArmedAt (Engine.instructionPointer e) with
  | false =>
      rw [checkHit_of_notArmed host ha]
      exact .missed ha
  | true =>
      obtain ⟨b, hb, he⟩ := exists_of_isArmedAt ha
      cases ho : b.oneShot with
      | false =>
          rw [checkHit_of_standing host hb he ho]
          exact .standing hb he ho
      | true =>
          rw [checkHit_of_single host hb he ho, Store.commit_eq]
          rw [BreakpointSet.eq_single_of_at? hb he ho] at hb
          rcases hw : Storage.set s.storage s.key
            (BreakpointSet.text (s.set.erase (Engine.instructionPointer e))) with ⟨fault | u, storage⟩
          · exact .unsaved hb hw
          · exact .spent hb hw

end Arming

namespace Scheduler

variable {ε σ : Type} [Engine ε] [Storage σ]

/-- What execution has done to a store when it comes to `d`: nothing; or it has used up the one-shot
breakpoint that it stands at; or it could not, and then every stored text is as before and the host has
heard of that. -/
inductive Spends (s : Store σ) (host : HostLog) (d : Scheduler ε σ) : Prop
  | nothing (store_eq : d.store = s)
  | hit {a : Address} {storage : σ} (pointer : Engine.instructionPointer d.engine = a)
      (single : s.set.at? a = some (.single a))
      (taken : Storage.set s.storage s.key (BreakpointSet.text (s.set.erase a)) = (.ok (), storage))
      (store_eq : d.store = { s with set := s.set.erase a, storage })
      (reported : d.lastHit = .transient a) (idle : d.running = false)
  | unsaved {a : Address} {fault : StorageFault} {storage : σ}
      (pointer : Engine.instructionPointer d.engine = a)
      (single : s.set.at? a = some (.single a))
      (refused : Storage.set s.storage s.key (BreakpointSet.text (s.set.erase a)) =
        (.error fault, storage))
      (store_eq : d.store = { s with storage })
      (kept : ∀ key, Storage.get? storage key = Storage.get? s.storage key)
      (told : d.host.toList = host.toList ++ [.error (Error.storage fault).message])
      (idle : d.running = false)

theorem Spends.withTicks {s : Store σ} {host : HostLog} {d : Scheduler ε σ} (h : Spends s host d)
    (ticks : TickRequests) (pending : Bool) :
    Spends s host { d with ticks, tickPending := pending } := by
  cases h with
  | nothing hs => exact .nothing hs
  | hit hp hb hw hs hl hr => exact .hit hp hb hw hs hl hr
  | unsaved hp hb hw hs hk hh hr => exact .unsaved hp hb hw hs hk hh hr

theorem spends_tick [SteadyStorage σ] (c : Scheduler ε σ) : Spends c.store c.host c.tick := by
  have hk := Arming.checked_checkHit c.store c.batchEnd.2 c.host
  have ht := ticked_tick c
  generalize c.tick = d at ht
  cases ht with
  | idle hr => exact .nothing rfl
  | stopped hr hs => exact .nothing rfl
  | failed hr hs hc =>
      rw [hc] at hk
      cases hk with
      | @unsaved fault storage hb hw =>
          have hkept := SteadyStorage.get?_of_refused c.store.storage c.store.key
            (BreakpointSet.text (c.store.set.erase (Engine.instructionPointer c.batchEnd.2))) fault
            (by rw [hw])
          rw [hw] at hkept
          exact .unsaved rfl hb hw rfl hkept Array.toList_push rfl
  | halted hr hs hc hh =>
      rw [hc] at hk
      cases hk with
      | missed hb => exact .nothing rfl
      | standing hb he ho => exact .nothing rfl
      | spent hb hw => exact .hit rfl hb hw rfl rfl rfl
  | underway hr hs hc hh hn =>
      obtain ⟨-, rfl, -⟩ := Arming.checkHit_unstopped hc hh
      exact .nothing rfl

theorem spends_driveFrom [SteadyStorage σ] (c : Scheduler ε σ) (k limit : Nat) :
    Spends c.store c.host (driveFrom k limit c).2 := by
  -- What is hit or cannot be saved ends the run, so no more is spent than by one tick: whatever a run
  -- outlives leaves the store and the host to the rest as they were.
  induction limit generalizing c k with
  | zero => exact .nothing rfl
  | succ limit ih =>
      simp only [driveFrom, takeTick?]
      cases c.ticks.take? with
      | none => exact .nothing rfl
      | some ticks =>
          have ht := spends_tick { c with ticks }
          simp only [Option.map_some]
          cases hr : (tick { c with ticks }).running with
          | true =>
              obtain ⟨hs, hh, -, -⟩ := foundNothing_of_running hr
              have hi := ih (tick { c with ticks }) (k + 1)
              rwa [hs, hh] at hi
          | false =>
              obtain ⟨later, pending, hd⟩ := exists_driveFrom_of_idle hr (k + 1) limit
              rw [hd]
              exact ht.withTicks later pending

def reports (c : Scheduler ε σ) (a : Address) : Bool :=
  c.running && !c.stopRequested && c.tick.lastHit == .transient a

def Unhit (c : Scheduler ε σ) : Prop :=
  c.running = true → c.lastHit = .none

omit [Storage σ] in
theorem unhit_start {c : Scheduler ε σ} (h : c.Unhit) : c.start.Unhit := by
  cases hr : c.running with
  | true => rwa [start_eq_self hr]
  | false =>
      rw [start_of_idle hr]
      exact fun _ => rfl

theorem unhit_tick (c : Scheduler ε σ) : c.tick.Unhit :=
  fun h => (foundNothing_of_running h).lastHit_eq

theorem reports_of_running {c : Scheduler ε σ} (hr : c.running = true) (hs : c.stopRequested = false)
    (a : Address) : c.reports a = (c.tick.lastHit == .transient a) := by
  simp only [reports, hr, hs]
  rfl

theorem spent_tick {c : Scheduler ε σ} (hu : c.Unhit) :
    (c.tick.store.set = c.store.set ∧ ∀ a, c.reports a = false) ∨
      ∃ k, c.store.set.at? k = some (.single k) ∧ c.tick.store.set = c.store.set.erase k ∧
        ∀ a, c.reports a = decide (k = a) := by
  cases hr : c.running with
  | false => exact .inl ⟨by rw [tick_eq_idle hr], fun a => by rw [reports, hr]; rfl⟩
  | true =>
      cases hs : c.stopRequested with
      | true => exact .inl ⟨by rw [tick_eq_stop hs], fun a => by rw [reports, hs, hr]; rfl⟩
      | false =>
          simp only [reports_of_running hr hs]
          have hk := Arming.checked_checkHit c.store c.batchEnd.2 c.host
          have ht := ticked_tick c
          generalize c.tick = d at ht
          cases ht with
          | idle hi => exact absurd (hr.symm.trans hi) (by decide)
          | stopped _ hq => exact absurd (hq.symm.trans hs) (by decide)
          | failed _ _ hc =>
              rw [hc] at hk
              cases hk with
              | unsaved hb hw =>
                  -- The hit of the run so far is still the one before it: none.
                  refine .inl ⟨rfl, fun a => ?_⟩
                  change (c.lastHit == .transient a) = false
                  rw [hu hr]
                  rfl
          | halted _ _ hc hh =>
              rw [hc] at hk
              cases hk with
              | missed hb => exact .inl ⟨rfl, fun a => rfl⟩
              | standing hb he ho => exact .inl ⟨rfl, fun a => rfl⟩
              | spent hb hw =>
                  refine .inr ⟨_, hb, rfl, fun a => ?_⟩
                  exact decide_eq_decide.mpr (Hit.transient.injEq _ a).to_iff
          | underway _ _ hc hh hn =>
              obtain ⟨rfl, rfl, -⟩ := Arming.checkHit_unstopped hc hh
              exact .inl ⟨rfl, fun a => rfl⟩

theorem singles_tick {c : Scheduler ε σ} (hu : c.Unhit) (a : Address) :
    c.tick.store.set.singles a + (if c.reports a then 1 else 0) = c.store.set.singles a := by
  rcases spent_tick hu with ⟨hset, hnone⟩ | ⟨k, hb, hset, hone⟩
  · rw [hset, hnone]
    rfl
  · rw [hset, hone, BreakpointSet.singles_erase]
    by_cases ha : a = k
    · subst ha
      rw [BreakpointSet.singles_of_at? hb]
      simp
    · have hne : ¬ k = a := fun h => ha h.symm
      simp [ha, hne]

theorem singles_driveFrom {c : Scheduler ε σ} (hu : c.Unhit) (a : Address) (k limit : Nat) :
    (driveFrom k limit c).2.store.set.singles a + (ticksOf limit c).countP (·.reports a) =
      c.store.set.singles a := by
  induction limit generalizing c k with
  | zero => rfl
  | succ limit ih =>
      simp only [driveFrom, ticksOf, takeTick?]
      cases c.ticks.take? with
      | none => rfl
      | some ticks =>
          have ht : (tick { c with ticks }).store.set.singles a +
              (if reports { c with ticks } a then 1 else 0) = c.store.set.singles a :=
            singles_tick (c := { c with ticks }) hu a
          have hi := ih (unhit_tick { c with ticks }) (k + 1)
          simp only [Option.map_some, List.countP_cons]
          omega

end Scheduler

namespace Session

variable {ε σ : Type} [Engine ε] [Storage σ]

theorem kept_unhit : Kept fun s : Session ε σ => s.scheduler.Unhit where
  start h := Scheduler.unhit_start h
  stop _ := nofun
  step h := h
  tick _ := Scheduler.unhit_tick _
  turn h := turn_of_tick (P := fun s => s.scheduler.Unhit) h fun _ => Scheduler.unhit_tick _
  requestStop h := h
  add _ h := h
  remove _ h := h
  toggle _ h := h

omit [Engine ε] in
def issuedTo (s : Session ε σ) (a : Address) : List Address :=
  if s.scheduler.store.set.contains a then [] else s.scheduler.store.issued (.single a)

def issued (s : Session ε σ) : Op → List Address
  | .add b => s.scheduler.store.issued b
  | .request (.addBreakpoint a oneShot) =>
      s.scheduler.store.issued { address := a, disabled := false, oneShot }
  | .runTo a | .request (.runTo a) => s.issuedTo a
  | _ => []

theorem singles_runTo (s : Session ε σ) (k a : Address) :
    (s.runTo k).2.scheduler.store.set.singles a ≤
      s.scheduler.store.set.singles a + (s.issuedTo k).count a := by
  simp only [runTo, issuedTo]
  split
  · rw [start, Scheduler.start_store]
    exact Nat.le_add_right _ _
  · have ha := s.scheduler.store.singles_add (.single k) a
    rcases hr : s.scheduler.store.add (.single k) with ⟨err | u, store⟩
    · rw [hr] at ha
      simp only [add, edit, hr]
      exact ha
    · rw [hr] at ha
      simp only [add, edit, hr, start, Scheduler.start_store]
      exact ha

omit [Engine ε] in
theorem singles_addByName (s : Session ε σ) (name : String) (a : Address) :
    (s.addByName name).2.scheduler.store.set.singles a ≤ s.scheduler.store.set.singles a := by
  simp only [addByName]
  cases s.labels.resolve? name with
  | none => exact le_refl _
  | some k =>
      have hi : (s.scheduler.store.issued (.standing k)).count a = 0 := by
        simp only [Store.issued]
        split <;> rfl
      have ha := s.scheduler.store.singles_add (.standing k) a
      rwa [hi] at ha

theorem singles_apply {s : Session ε σ} (hu : s.scheduler.Unhit) (op : Op) (a : Address) :
    (s.apply op).scheduler.store.set.singles a + (s.ticksOf op).countP (·.reports a) ≤
      s.scheduler.store.set.singles a + (s.issued op).count a := by
  have hstart : s.start.scheduler.store = s.scheduler.store := s.scheduler.start_store
  cases op with
  | start => exact (congrArg (fun t : Store σ => t.set.singles a) hstart).le
  | tick =>
      have ht := Scheduler.singles_tick hu a
      simp only [ticksOf, List.countP_singleton]
      exact ht.le
  | turn =>
      rw [show s.apply .turn = (s.driveFor 1).2 from s.driveFor_one.symm]
      exact (Scheduler.singles_driveFrom hu a 0 1).le
  | drive limit => exact (Scheduler.singles_driveFrom hu a 0 limit).le
  | runTo k => exact s.singles_runTo k a
  | add b => exact s.scheduler.store.singles_add b a
  | addByName name => exact s.singles_addByName name a
  | remove k => exact s.scheduler.store.singles_remove k a
  | toggle k => exact (s.scheduler.store.singles_toggle k a).le
  | request r =>
      cases r with
      | start => exact (congrArg (fun t : Store σ => t.set.singles a) hstart).le
      | runTo k => exact s.singles_runTo k a
      | addBreakpoint k oneShot => exact s.scheduler.store.singles_add _ a
      | addBreakByName name => exact s.singles_addByName name a
      | removeBreakpoint k => exact s.scheduler.store.singles_remove k a
      | toggleBreakpoint k => exact (s.scheduler.store.singles_toggle k a).le
      | _ => exact le_refl _
  | _ => exact le_refl _

theorem singles_run {s : Session ε σ} (hu : s.scheduler.Unhit) (ops : List Op) (a : Address) :
    (s.run ops).scheduler.store.set.singles a + (s.along ticksOf ops).countP (·.reports a) ≤
      s.scheduler.store.set.singles a + (s.along issued ops).count a := by
  induction ops generalizing s with
  | nil => exact le_refl _
  | cons op ops ih =>
      have ha := singles_apply hu op a
      have hi := ih (kept_unhit.apply hu op)
      simp only [along, List.countP_append, List.count_append]
      change (run (s.apply op) ops).scheduler.store.set.singles a + _ ≤ _
      omega

structure Spares (s : Session ε σ) (ops : List Op) : Prop where
  start : (s.run ops).start.scheduler.store = (s.run ops).scheduler.store
  stop : (s.run ops).stop.scheduler.store = (s.run ops).scheduler.store
  step : (s.run ops).step.2.scheduler.store = (s.run ops).scheduler.store
  tick : Scheduler.Spends (s.run ops).scheduler.store (s.run ops).scheduler.host
    (s.run ops).tick.scheduler
  drive : ∀ limit, Scheduler.Spends (s.run ops).scheduler.store (s.run ops).scheduler.host
    ((s.run ops).driveFor limit).2.scheduler
  hits : ∀ a, (s.along ticksOf ops).countP (·.reports a) ≤
    s.scheduler.store.set.singles a + (s.along issued ops).count a

theorem spares_run [SteadyStorage σ] (e : ε) (key : String) (given : List (Address × String))
    (storage : σ) (ticks : TickRequests) (config : SchedulerConfig) (w : Stopwatch) (ops : List Op) :
    (create e key given storage ticks config w).Spares ops := by
  have hu : (create e key given storage ticks config w).scheduler.Unhit := nofun
  refine ⟨Scheduler.start_store _, rfl, rfl, Scheduler.spends_tick _,
    fun limit => Scheduler.spends_driveFrom _ 0 limit, fun a => ?_⟩
  have hr := singles_run hu ops a
  omega

theorem spares_run_refused :
    let stored := "[\x7b\"address\":20,\"oneShot\":true\x7d]"
    let s := create (Scripted.ofProgram #[10, 20, 20, 20] [] 0 .empty) "p" []
      (⟨.ofList [("p", stored)], 0, [3]⟩ : FlakyStorage) .channel .standard .still
    let ops : List Op := [.start, .drive 3, .runTo 20, .drive 3, .start, .drive 3]
    (s.scheduler.store.set.singles 20 = 1 ∧ s.along issued ops = [20] ∧
        (s.along ticksOf ops).map (·.reports 20) = [true, false, true]) ∧ s.Spares ops := by
  intro stored s ops
  exact ⟨by decide +kernel, spares_run (Scripted.ofProgram #[10, 20, 20, 20] [] 0 .empty) "p" []
    (⟨.ofList [("p", stored)], 0, [3]⟩ : FlakyStorage) .channel .standard .still ops⟩

end Session

end RunControl
