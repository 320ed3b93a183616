import RunControl.Proofs.History
import RunControl.Proofs.Restoring

namespace RunControl

class LawfulStorage (σ : Type) [Storage σ] : Prop where
  get?_of_ok : ∀ (s : σ) (key value : String), (Storage.set s key value).1 = .ok () →
    Storage.get? (Storage.set s key value).2 key = some value
  get?_of_error : ∀ (s : σ) (key value : String) (fault : StorageFault),
    (Storage.set s key value).1 = .error fault →
      Storage.get? (Storage.set s key value).2 key = Storage.get? s key

instance : LawfulStorage MemoryStorage where
  get?_of_ok s key value _ := by
    show (s.entries.insert key value).get? key = _
    rw [Table.get?_insert, if_pos rfl]
  get?_of_error _ _ _ _ h := by cases h

instance : LawfulStorage ReadOnlyStorage where
  get?_of_ok _ _ _ h := by cases h
  get?_of_error _ _ _ _ _ := rfl

instance : LawfulStorage FlakyStorage where
  get?_of_ok s key value h := by
    simp only [Storage.set] at h ⊢
    split at h
    · cases h
    · rename_i hn
      rw [if_neg hn]
      show (s.entries.insert key value).get? key = _
      rw [Table.get?_insert, if_pos rfl]
  get?_of_error s key value fault h := by
    simp only [Storage.set] at h ⊢
    split at h
    · rename_i hn
      rw [if_pos hn]
      rfl
    · cases h

structure Audited (σ : Type) where
  storage : σ
  taken : Nat

namespace Audited

variable {σ : Type} [Storage σ]

def fresh (s : σ) : Audited σ := ⟨s, 0⟩

instance : Storage (Audited σ) where
  get? s key := Storage.get? s.storage key
  set s key value :=
    match Storage.set s.storage key value with
    | (.ok (), storage) => (.ok (), ⟨storage, s.taken + 1⟩)
    | (.error fault, storage) => (.error fault, ⟨storage, s.taken⟩)

theorem set_eq (s : Audited σ) (key value : String) :
    Storage.set s key value = match Storage.set s.storage key value with
      | (.ok (), storage) => (.ok (), ⟨storage, s.taken + 1⟩)
      | (.error fault, storage) => (.error fault, ⟨storage, s.taken⟩) :=
  rfl

end Audited

namespace Store

variable {σ : Type} [Storage σ]

structure Synced (key : String) (taken : Nat) (s : Store σ) : Prop where
  key_eq : s.key = key
  reopened_eq : (load key s.storage).set = s.set
  saved?_eq : 0 < taken →
    s.saved? = some (Json.Node.list (s.set.toList.map Breakpoint.toNode)).text

theorem synced_load (key : String) (storage : σ) : (load key storage).Synced key 0 :=
  ⟨rfl, rfl, fun h => absurd h (Nat.lt_irrefl 0)⟩

def unaudited (s : Store (Audited σ)) : Store σ := ⟨s.key, s.storage.storage, s.set⟩

theorem synced_commit [LawfulStorage σ] (key : String) :
    KeptByCommit fun s : Store (Audited σ) => s.unaudited.Synced key s.storage.taken := by
  intro s set h
  have hok := LawfulStorage.get?_of_ok s.storage.storage s.key set.text
  have herror := LawfulStorage.get?_of_error s.storage.storage s.key set.text
  have hkey : s.key = key := h.key_eq
  rw [commit_eq, Audited.set_eq]
  rcases hset : Storage.set s.storage.storage s.key set.text with ⟨fault | u, storage⟩
  · -- The old text is still there, and the old set is put back.
    rw [hset] at herror
    have hget : Storage.get? storage s.key = Storage.get? s.storage.storage s.key := herror fault rfl
    have hrestore : restore s.key storage = restore s.key s.storage.storage := by
      simp only [restore, hget]
    have hreopened : restore key s.storage.storage = s.set := h.reopened_eq
    refine ⟨hkey, ?_, fun hp => hget.trans (h.saved?_eq hp)⟩
    show restore key storage = s.set
    rw [← hkey] at hreopened ⊢
    exact hrestore.trans hreopened
  · -- The new text is read back.
    rw [hset] at hok
    have hget : Storage.get? storage s.key = some set.text := hok rfl
    refine ⟨hkey, ?_, fun _ => hget⟩
    show restore key storage = set
    rw [← hkey, restore, hget]
    exact set.ofText_text

theorem unaudited_commit (s : Store (Audited σ)) (set : BreakpointSet) :
    s.unaudited.commit set = ((s.commit set).1, (s.commit set).2.unaudited) := by
  rw [commit_eq, commit_eq, Audited.set_eq]
  show (match Storage.set s.storage.storage s.key set.text with
    | (.ok (), storage) => _
    | (.error fault, storage) => _) = _
  rcases Storage.set s.storage.storage s.key set.text with ⟨fault | u, storage⟩ <;> rfl

theorem unaudited_add (s : Store (Audited σ)) (b : Breakpoint) :
    s.unaudited.add b = ((s.add b).1, (s.add b).2.unaudited) := by
  rw [add_eq, add_eq]
  exact s.unaudited_commit (s.set.put b)

theorem unaudited_remove (s : Store (Audited σ)) (a : Address) :
    s.unaudited.remove a = ((s.remove a).1, (s.remove a).2.unaudited) := by
  have hset : s.unaudited.set = s.set := rfl
  simp only [remove_eq, hset, unaudited_commit]
  split <;> rfl

theorem unaudited_toggle (s : Store (Audited σ)) (a : Address) :
    s.unaudited.toggle a = ((s.toggle a).1, (s.toggle a).2.unaudited) := by
  have hset : s.unaudited.set = s.set := rfl
  simp only [toggle_eq, hset, unaudited_commit]
  cases s.set.at? a <;> rfl

end Store

variable {ε σ : Type}

theorem Arming.unaudited_checkHit [Engine ε] [Storage σ] (s : Store (Audited σ)) (e : ε) (host : HostLog) :
    checkHit s.unaudited e host =
      ((checkHit s e host).1, (checkHit s e host).2.1.unaudited, (checkHit s e host).2.2) := by
  have hset : s.unaudited.set = s.set := rfl
  simp only [checkHit, hset, Store.unaudited_remove]
  split
  · rfl
  · split <;> rfl

namespace Scheduler

def unaudited (c : Scheduler ε (Audited σ)) : Scheduler ε σ :=
  { c with store := c.store.unaudited }

theorem unaudited_start [Engine ε] (c : Scheduler ε (Audited σ)) : c.unaudited.start = c.start.unaudited := by
  cases hr : c.running with
  | true => rw [start_eq_self hr, start_eq_self (c := c.unaudited) hr]
  | false =>
      rw [start_of_idle hr, start_of_idle (c := c.unaudited) hr]
      rfl

variable [Engine ε] [Storage σ]

theorem unaudited_batchStep (c : Scheduler ε (Audited σ)) :
    ({ c.unaudited with tickPending := false } : Scheduler ε σ).batchStep =
      let r := ({ c with tickPending := false } : Scheduler ε (Audited σ)).batchStep
      (r.1, r.2.unaudited) := by
  have hc : Arming.checkHit c.unaudited.store c.unaudited.batchEnd.2 c.unaudited.host =
      ((Arming.checkHit c.store c.batchEnd.2 c.host).1,
        (Arming.checkHit c.store c.batchEnd.2 c.host).2.1.unaudited,
        (Arming.checkHit c.store c.batchEnd.2 c.host).2.2) :=
    Arming.unaudited_checkHit c.store c.batchEnd.2 c.host
  rw [batchStep_eq, batchStep_eq, hc]
  rcases Arming.checkHit c.store c.batchEnd.2 c.host with ⟨err | hit, store, host⟩ <;> rfl

theorem unaudited_tick (c : Scheduler ε (Audited σ)) : c.unaudited.tick = c.tick.unaudited := by
  cases hr : c.running with
  | false => rw [tick_eq_idle hr, tick_eq_idle (c := c.unaudited) hr]; rfl
  | true =>
      cases hs : c.stopRequested with
      | true =>
          have hu : c.unaudited.running = true ∧ c.unaudited.stopRequested = true := ⟨hr, hs⟩
          simp only [tick, hr, hs, hu]
          rfl
      | false =>
          rw [tick_of_running hr hs, tick_of_running (c := c.unaudited) hr hs, unaudited_batchStep]
          rcases ({ c with tickPending := false } : Scheduler ε (Audited σ)).batchStep with
            ⟨err | more, d⟩
          · rfl
          · cases more with
            | false =>
                show d.unaudited.reportHalt.stop = d.reportHalt.stop.unaudited
                rw [reportHalt_eq, reportHalt_eq]
                rfl
            | true =>
                show d.unaudited.schedule = d.schedule.unaudited
                have hp : d.unaudited.tickPending = d.tickPending := rfl
                simp only [schedule, hp]
                split <;> rfl

theorem unaudited_driveFrom (c : Scheduler ε (Audited σ)) (k limit : Nat) :
    driveFrom k limit c.unaudited =
      ((driveFrom k limit c).1, (driveFrom k limit c).2.unaudited) := by
  induction limit generalizing c k with
  | zero => rfl
  | succ limit ih =>
      have ht : c.unaudited.ticks = c.ticks := rfl
      simp only [driveFrom, takeTick?, ht]
      cases c.ticks.take? with
      | none => rfl
      | some ticks =>
          have hu := unaudited_tick { c with ticks }
          have hi := ih (tick { c with ticks }) (k + 1)
          rw [← hu] at hi
          exact hi

end Scheduler

namespace Session

def unaudited (s : Session ε (Audited σ)) : Session ε σ :=
  { s with scheduler := s.scheduler.unaudited }

theorem unaudited_edit {α : Type} {s : Session ε (Audited σ)} {f : Store σ → α × Store σ}
    {g : Store (Audited σ) → α × Store (Audited σ)}
    (h : f s.scheduler.store.unaudited =
      ((g s.scheduler.store).1, (g s.scheduler.store).2.unaudited)) :
    s.unaudited.edit f = ((s.edit g).1, (s.edit g).2.unaudited) := by
  have hs : s.unaudited.scheduler.store = s.scheduler.store.unaudited := rfl
  simp only [edit, hs, h]
  rfl

variable [Storage σ]

theorem unaudited_add (s : Session ε (Audited σ)) (b : Breakpoint) :
    s.unaudited.add b = ((s.add b).1, (s.add b).2.unaudited) :=
  unaudited_edit (s.scheduler.store.unaudited_add b)

theorem unaudited_remove (s : Session ε (Audited σ)) (a : Address) :
    s.unaudited.remove a = ((s.remove a).1, (s.remove a).2.unaudited) :=
  unaudited_edit (s.scheduler.store.unaudited_remove a)

theorem unaudited_toggle (s : Session ε (Audited σ)) (a : Address) :
    s.unaudited.toggle a = ((s.toggle a).1, (s.toggle a).2.unaudited) :=
  unaudited_edit (s.scheduler.store.unaudited_toggle a)

theorem unaudited_addByName (s : Session ε (Audited σ)) (name : String) :
    (s.unaudited.addByName name).2 = (s.addByName name).2.unaudited := by
  have hl : s.unaudited.labels = s.labels := rfl
  simp only [addByName, hl, unaudited_add]
  cases s.labels.resolve? name <;> rfl

variable [Engine ε]

omit [Storage σ] in
theorem unaudited_start (s : Session ε (Audited σ)) : s.unaudited.start = s.start.unaudited := by
  have hs := s.scheduler.unaudited_start
  simp only [start, unaudited, hs]

theorem unaudited_tick (s : Session ε (Audited σ)) : s.unaudited.tick = s.tick.unaudited := by
  have hs := s.scheduler.unaudited_tick
  simp only [tick, unaudited, hs]

theorem unaudited_turn (s : Session ε (Audited σ)) : s.unaudited.turn = s.turn.unaudited := by
  have ht : s.unaudited.scheduler.ticks = s.scheduler.ticks := rfl
  simp only [turn, Scheduler.takeTick?, ht]
  cases s.scheduler.ticks.take? with
  | none => rfl
  | some ticks =>
      have hs := Scheduler.unaudited_tick { s.scheduler with ticks }
      exact congrArg (fun c => ({ s.unaudited with scheduler := c } : Session ε σ)) hs

theorem unaudited_driveFor (s : Session ε (Audited σ)) (limit : Nat) :
    (s.unaudited.driveFor limit).2 = (s.driveFor limit).2.unaudited := by
  have hs := s.scheduler.unaudited_driveFrom 0 limit
  exact congrArg (fun r => ({ s.unaudited with scheduler := r.2 } : Session ε σ)) hs

theorem unaudited_runTo (s : Session ε (Audited σ)) (a : Address) :
    (s.unaudited.runTo a).2 = (s.runTo a).2.unaudited := by
  have hs : s.unaudited.scheduler.store.set = s.scheduler.store.set := rfl
  simp only [runTo, hs, unaudited_add, unaudited_start]
  split
  · rfl
  · rcases s.add (.single a) with ⟨err | u, t⟩
    · rfl
    · exact t.unaudited_start

theorem unaudited_handle (s : Session ε (Audited σ)) (r : DebugRequest) :
    (s.unaudited.handle r).2 = (s.handle r).2.unaudited := by
  cases r with
  | start => exact s.unaudited_start
  | stop => rfl
  | step => rfl
  | runTo a => exact s.unaudited_runTo a
  | addBreakpoint a oneShot => exact congrArg Prod.snd (s.unaudited_add _)
  | addBreakByName name => exact s.unaudited_addByName name
  | removeBreakpoint a => exact congrArg Prod.snd (s.unaudited_remove a)
  | toggleBreakpoint a => exact congrArg Prod.snd (s.unaudited_toggle a)
  | listBreakpoints => rfl
  | getState => rfl

theorem unaudited_apply (s : Session ε (Audited σ)) (op : Op) :
    s.unaudited.apply op = (s.apply op).unaudited := by
  cases op with
  | start => exact s.unaudited_start
  | stop => rfl
  | step => rfl
  | tick => exact s.unaudited_tick
  | turn => exact s.unaudited_turn
  | drive limit => exact s.unaudited_driveFor limit
  | runTo a => exact s.unaudited_runTo a
  | requestStop => rfl
  | add b => exact congrArg Prod.snd (s.unaudited_add b)
  | addByName name => exact s.unaudited_addByName name
  | remove a => exact congrArg Prod.snd (s.unaudited_remove a)
  | toggle a => exact congrArg Prod.snd (s.unaudited_toggle a)
  | request r => exact s.unaudited_handle r

theorem unaudited_run (s : Session ε (Audited σ)) (ops : List Op) :
    s.unaudited.run ops = (s.run ops).unaudited := by
  induction ops generalizing s with
  | nil => rfl
  | cons op ops ih =>
      show (s.unaudited.apply op).run ops = ((s.apply op).run ops).unaudited
      rw [unaudited_apply, ih]

theorem synced_run [LawfulStorage σ] (e : ε) (key : String) (given : List (Address × String))
    (storage : σ) (ticks : TickRequests) (config : SchedulerConfig) (w : Stopwatch) (ops : List Op) :
    let s := (create e key given storage ticks config w).run ops
    let t := (create e key given (Audited.fresh storage) ticks config w).run ops
    t.unaudited = s ∧
      s.scheduler.store.Synced key t.scheduler.store.storage.taken ∧
      s.breakpoints.Pairwise fun a b => a.address < b.address := by
  intro s t
  have hst : t.unaudited = s :=
    (unaudited_run (create e key given (Audited.fresh storage) ticks config w) ops).symm
  refine ⟨hst, ?_, s.scheduler.store.set.toList_ascending⟩
  have hstore : s.scheduler.store = t.scheduler.store.unaudited := by
    rw [← hst]
    rfl
  rw [hstore]
  exact (kept_of_commit (Store.synced_commit key)).run
    (s := create e key given (Audited.fresh storage) ticks config w) (Store.synced_load key storage) ops

theorem synced_run_refused :
    let s := (create (Scripted.ofProgram #[10, 20, 30] [1] 0 .empty) "p" []
      (⟨.ofList [("p", "no list")], 0, [2]⟩ : FlakyStorage) .channel .standard .still).run
        [.add (.standing 30), .add (.single 20), .runTo 10, .drive 3]
    let t := (create (Scripted.ofProgram #[10, 20, 30] [1] 0 .empty) "p" []
      (Audited.fresh (⟨.ofList [("p", "no list")], 0, [2]⟩ : FlakyStorage)) .channel .standard
      .still).run [.add (.standing 30), .add (.single 20), .runTo 10, .drive 3]
    t.unaudited = s ∧
      s.scheduler.store.Synced "p" t.scheduler.store.storage.taken ∧
      s.breakpoints.Pairwise fun a b => a.address < b.address :=
  synced_run (Scripted.ofProgram #[10, 20, 30] [1] 0 .empty) "p" []
    (⟨.ofList [("p", "no list")], 0, [2]⟩ : FlakyStorage) .channel .standard .still
    [.add (.standing 30), .add (.single 20), .runTo 10, .drive 3]

end Session

end RunControl
