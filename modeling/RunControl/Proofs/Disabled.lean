import RunControl.Proofs.Bracketing
import RunControl.Proofs.Meaning

namespace RunControl

namespace BreakpointSet

def armedPart (s : BreakpointSet) : BreakpointSet where
  entries := s.entries.filter fun e => !e.2.disabled
  ascending := s.ascending.filter _

theorem at?_armedPart (s : BreakpointSet) (a : Address) :
    s.armedPart.at? a = (s.at? a).filter Breakpoint.isEnabled := by
  have hg : s.armedPart.get? a = (s.get? a).filter fun f => !f.disabled := by
    ext f
    rw [Option.filter_eq_some_iff, Table.get?_eq_some_iff, Table.get?_eq_some_iff]
    exact List.mem_filter
  simp only [at?, hg, Option.filter_map]
  rfl

theorem enabled_armedPart (s : BreakpointSet) : s.armedPart.toList.map (·.address) = s.enabled := by
  simp only [enabled, toList, armedPart, List.filter_map]
  rfl

variable {s t : BreakpointSet}

theorem enabled_congr (h : s.armedPart = t.armedPart) : s.enabled = t.enabled := by
  rw [← enabled_armedPart, h, enabled_armedPart]

theorem filter_at?_congr (h : s.armedPart = t.armedPart) (a : Address) :
    (s.at? a).filter Breakpoint.isEnabled = (t.at? a).filter Breakpoint.isEnabled := by
  rw [← at?_armedPart, h, at?_armedPart]

theorem isArmedAt_congr (h : s.armedPart = t.armedPart) (a : Address) :
    s.isArmedAt a = t.isArmedAt a := by
  have hany : ∀ o : Option Breakpoint,
      o.any Breakpoint.isEnabled = (o.filter Breakpoint.isEnabled).isSome := by
    intro o
    cases o with
    | none => rfl
    | some b => cases hb : b.isEnabled <;> simp [Option.filter, hb]
  rw [isArmedAt, isArmedAt, hany, hany, filter_at?_congr h]

theorem armedPart_put_congr (h : s.armedPart = t.armedPart) (b : Breakpoint) :
    (s.put b).armedPart = (t.put b).armedPart := by
  apply ext_at?
  intro a
  rw [at?_armedPart, at?_armedPart, at?_put, at?_put]
  split
  · rfl
  · exact filter_at?_congr h a

theorem armedPart_erase_congr (h : s.armedPart = t.armedPart) (k : Address) :
    armedPart (s.erase k) = armedPart (t.erase k) := by
  apply ext_at?
  intro a
  rw [at?_armedPart, at?_armedPart, at?_erase, at?_erase]
  split
  · rfl
  · exact filter_at?_congr h a

theorem erase_of_not_contains (h : s.contains a = false) : s.erase a = s := by
  apply ext_at?
  intro k
  rw [at?_erase]
  split
  · rename_i hk
    rw [contains_eq_isSome_at?] at h
    rw [hk, Option.not_isSome_iff_eq_none.mp (Bool.eq_false_iff.mp h)]
  · rfl

end BreakpointSet

def Storage.AlwaysAccepts {σ : Type} [Storage σ] (s : σ) : Prop :=
  ∀ writes : List (String × String),
    Storage.Accepts (writes.foldl (fun s w => (Storage.set s w.1 w.2).2) s)

theorem MemoryStorage.alwaysAccepts (s : MemoryStorage) : Storage.AlwaysAccepts s :=
  fun _ => MemoryStorage.accepts _

namespace Store

variable {σ : Type} [Storage σ]

theorem kept_alwaysAccepts : KeptByCommit fun s : Store σ => Storage.AlwaysAccepts s.storage := by
  intro s set h writes
  have hs := h ((s.key, set.text) :: writes)
  rw [commit_eq]
  rw [List.foldl_cons] at hs
  rcases hw : Storage.set s.storage s.key set.text with ⟨fault | u, storage⟩
  · rwa [hw] at hs
  · rwa [hw] at hs

theorem commit_of_accepts {s : Store σ} (h : Storage.Accepts s.storage) (set : BreakpointSet) :
    (s.commit set).1 = .ok () ∧ (s.commit set).2.set = set := by
  have hw := h s.key set.text
  rw [commit_eq]
  rcases hr : Storage.set s.storage s.key set.text with ⟨fault | u, storage⟩
  · rw [hr] at hw
    cases hw
  · exact ⟨rfl, rfl⟩

theorem set_add {s : Store σ} (h : Storage.Accepts s.storage) (b : Breakpoint) :
    (s.add b).2.set = s.set.put b := by
  rw [add_eq]
  exact (commit_of_accepts h _).2

theorem remove_of_accepts {s : Store σ} (h : Storage.Accepts s.storage) (a : Address) :
    (s.remove a).1 = .ok (s.set.contains a) ∧ (s.remove a).2.set = s.set.erase a := by
  obtain ⟨hr, hset⟩ := commit_of_accepts h (s.set.erase a)
  rw [remove_eq]
  cases hc : s.set.contains a with
  | true =>
      rw [if_pos rfl, hr]
      exact ⟨rfl, hset⟩
  | false => exact ⟨rfl, (BreakpointSet.erase_of_not_contains hc).symm⟩

end Store

namespace Arming

variable {ε σ : Type} [Engine ε] [Storage σ]

theorem checkHit_alike {s t : Store σ} (h : s.set.armedPart = t.set.armedPart)
    (hs : Storage.Accepts s.storage) (ht : Storage.Accepts t.storage) (e : ε) (host : HostLog) :
    (checkHit s e host).1 = (checkHit t e host).1 ∧
      (checkHit s e host).2.2 = (checkHit t e host).2.2 ∧
      (checkHit s e host).2.1.set.armedPart = (checkHit t e host).2.1.set.armedPart := by
  obtain ⟨hr, hset⟩ := Store.remove_of_accepts hs (Engine.instructionPointer e)
  obtain ⟨hr', hset'⟩ := Store.remove_of_accepts ht (Engine.instructionPointer e)
  simp only [checkHit, BreakpointSet.filter_at?_congr h]
  cases (t.set.at? (Engine.instructionPointer e)).filter Breakpoint.isEnabled with
  | none => exact ⟨rfl, rfl, h⟩
  | some b =>
      simp only
      split
      · -- The removals may say different things, but a hit is what comes of both.
        rw [hr, hr', hset, hset']
        exact ⟨rfl, rfl, BreakpointSet.armedPart_erase_congr h _⟩
      · exact ⟨rfl, rfl, h⟩

end Arming

namespace Scheduler

variable {ε σ : Type}

def withStore (c : Scheduler ε σ) (store : Store σ) : Scheduler ε σ :=
  { c with store }

structure Alike (c d : Scheduler ε σ) : Prop where
  rest : d = c.withStore d.store
  armed : c.store.set.armedPart = d.store.set.armedPart

theorem Alike.exists_store {c d : Scheduler ε σ} (h : c.Alike d) :
    ∃ t : Store σ, c.store.set.armedPart = t.set.armedPart ∧ d = c.withStore t :=
  ⟨d.store, h.armed, h.rest⟩

theorem Alike.map {c d : Scheduler ε σ} (h : c.Alike d) {f : Scheduler ε σ → Scheduler ε σ}
    (hf : ∀ c t, f (withStore c t) = (f c).withStore t) (hs : ∀ c, (f c).store = c.store) :
    (f c).Alike (f d) := by
  obtain ⟨t, ha, rfl⟩ := h.exists_store
  rw [hf]
  refine ⟨rfl, ?_⟩
  rw [hs]
  exact ha

theorem Alike.tickBlocks_eq {c d : Scheduler ε σ} (h : c.Alike d) : c.tickBlocks = d.tickBlocks := by
  obtain ⟨t, ha, rfl⟩ := h.exists_store
  simp only [tickBlocks, BreakpointSet.enabled_congr ha]
  rfl

variable [Engine ε]

theorem Alike.startBlocks_eq {c d : Scheduler ε σ} (h : c.Alike d) : c.startBlocks = d.startBlocks := by
  obtain ⟨t, ha, rfl⟩ := h.exists_store
  simp only [startBlocks, BreakpointSet.isArmedAt_congr ha]
  rfl

theorem Alike.start {c d : Scheduler ε σ} (h : c.Alike d) : c.start.Alike d.start := by
  obtain ⟨t, ha, rfl⟩ := h.exists_store
  cases hr : c.running with
  | true => rwa [start_eq_self hr, start_eq_self (c := c.withStore t) hr]
  | false =>
      rw [start_of_idle hr, start_of_idle (c := c.withStore t) hr]
      simp only [startEngine, startState, BreakpointSet.isArmedAt_congr ha]
      exact ⟨rfl, ha⟩

section

variable {c : Scheduler ε σ} {t : Store σ} (h : c.store.set.armedPart = t.set.armedPart)

include h

theorem batchEnd_withStore : (c.withStore t).batchEnd = c.batchEnd := by
  simp only [batchEnd, BreakpointSet.enabled_congr h]
  rfl

theorem batched_withStore : (c.withStore t).batched = c.batched.withStore t := by
  simp only [batched, batchEnd_withStore h, measured, BreakpointSet.enabled_congr h]
  rfl

theorem examined_withStore (store store' : Store σ) (host : HostLog) (hit : Hit) :
    (c.withStore t).examined store' host hit = (c.examined store host hit).withStore store' := by
  simp only [examined, batchEnd_withStore h, batched_withStore h]
  rfl

end

variable [Storage σ]

theorem Alike.tick {c d : Scheduler ε σ} (h : c.Alike d) (hc : Storage.Accepts c.store.storage)
    (hd : Storage.Accepts d.store.storage) : c.tick.Alike d.tick := by
  obtain ⟨t, ha, rfl⟩ := h.exists_store
  cases hr : c.running with
  | false =>
      rw [tick_eq_idle hr, tick_eq_idle (c := c.withStore t) hr]
      exact ⟨rfl, ha⟩
  | true =>
      cases hs : c.stopRequested with
      | true =>
          rw [tick_eq_stop hs, tick_eq_stop (c := c.withStore t) hs]
          exact ⟨rfl, ha⟩
      | false =>
          have hk := Arming.checkHit_alike ha hc hd c.batchEnd.2 c.host
          have hcheck : Arming.checkHit (c.withStore t).store (c.withStore t).batchEnd.2
              (c.withStore t).host = Arming.checkHit t c.batchEnd.2 c.host := by
            rw [batchEnd_withStore ha]
            rfl
          rw [tick_of_running hr hs, tick_of_running (c := c.withStore t) hr hs, batchStep_eq,
            batchStep_eq, hcheck, batchEnd_withStore ha]
          rcases hck : Arming.checkHit c.store c.batchEnd.2 c.host with ⟨r, s', host⟩
          rcases htk : Arming.checkHit t c.batchEnd.2 c.host with ⟨r', t', host'⟩
          rw [hck, htk] at hk
          obtain ⟨hhit, hhost, hset⟩ := hk
          obtain rfl : r = r' := hhit
          obtain rfl : host = host' := hhost
          cases r with
          | error err =>
              refine ⟨?_, hset⟩
              simp only [batched_withStore ha]
              rfl
          | ok hit =>
              simp only [examined_withStore ha s' t']
              cases !hit.stops && c.batchEnd.1.isRunning with
              | true => exact ⟨rfl, hset⟩
              | false =>
                  simp only [reportHalt_eq]
                  exact ⟨rfl, hset⟩

theorem Alike.driveFrom {c d : Scheduler ε σ} (h : c.Alike d)
    (hc : Storage.AlwaysAccepts c.store.storage) (hd : Storage.AlwaysAccepts d.store.storage)
    (k limit : Nat) :
    (driveFrom k limit c).2.Alike (driveFrom k limit d).2 ∧
      (ticksOf limit c).flatMap tickBlocks = (ticksOf limit d).flatMap tickBlocks := by
  -- Schedulers that are alike wait for the same ticks, and each of these keeps them alike.
  induction limit generalizing c d k with
  | zero => exact ⟨h, rfl⟩
  | succ limit ih =>
      have hq : d.ticks = c.ticks := by rw [h.rest]; rfl
      simp only [Scheduler.driveFrom, ticksOf, takeTick?, hq]
      cases c.ticks.take? with
      | none => exact ⟨h, rfl⟩
      | some ticks =>
          have ht : Alike { c with ticks } { d with ticks } :=
            h.map (f := fun c => { c with ticks }) (fun _ _ => rfl) fun _ => rfl
          obtain ⟨hi, hb⟩ := ih (ht.tick (hc []) (hd [])) (Store.kept_alwaysAccepts.tick hc)
            (Store.kept_alwaysAccepts.tick hd) (k + 1)
          simp only [Option.map_some, List.flatMap_cons]
          exact ⟨hi, by rw [ht.tickBlocks_eq, hb]⟩

end Scheduler

namespace Session

variable {ε σ : Type}

def Op.noticesDisabled : Op → Bool
  | .runTo _ | .toggle _ | .request (.runTo _) | .request (.toggleBreakpoint _) => true
  | _ => false

structure Alike (s t : Session ε σ) : Prop where
  scheduler : s.scheduler.Alike t.scheduler
  labels : s.labels = t.labels

theorem Alike.edit {s t : Session ε σ} (h : s.Alike t) {α β : Type} {f : Store σ → α × Store σ}
    {g : Store σ → β × Store σ}
    (hset : (f s.scheduler.store).2.set.armedPart = (g t.scheduler.store).2.set.armedPart) :
    (s.edit f).2.Alike (t.edit g).2 := by
  obtain ⟨u, -, hu⟩ := h.scheduler.exists_store
  refine ⟨⟨?_, hset⟩, h.labels⟩
  simp only [Session.edit, hu]
  rfl

theorem Alike.map {s t : Session ε σ} (h : s.Alike t) {f : Scheduler ε σ → Scheduler ε σ}
    (hf : ∀ c u, f (Scheduler.withStore c u) = (f c).withStore u) (hs : ∀ c, (f c).store = c.store) :
    Alike { s with scheduler := f s.scheduler } { t with scheduler := f t.scheduler } :=
  ⟨h.scheduler.map hf hs, h.labels⟩

variable [Storage σ]

theorem Alike.add {s t : Session ε σ} (h : s.Alike t) (hs : Storage.Accepts s.scheduler.store.storage)
    (ht : Storage.Accepts t.scheduler.store.storage) (b : Breakpoint) :
    (s.add b).2.Alike (t.add b).2 := by
  apply h.edit
  rw [Store.set_add hs, Store.set_add ht]
  exact BreakpointSet.armedPart_put_congr h.scheduler.armed b

theorem Alike.remove {s t : Session ε σ} (h : s.Alike t) (hs : Storage.Accepts s.scheduler.store.storage)
    (ht : Storage.Accepts t.scheduler.store.storage) (a : Address) :
    (s.remove a).2.Alike (t.remove a).2 := by
  apply h.edit
  rw [(Store.remove_of_accepts hs a).2, (Store.remove_of_accepts ht a).2]
  exact BreakpointSet.armedPart_erase_congr h.scheduler.armed a

theorem Alike.addByName {s t : Session ε σ} (h : s.Alike t)
    (hs : Storage.Accepts s.scheduler.store.storage) (ht : Storage.Accepts t.scheduler.store.storage)
    (name : String) : (s.addByName name).2.Alike (t.addByName name).2 := by
  simp only [Session.addByName, h.labels]
  cases t.labels.resolve? name with
  | none => exact h
  | some a => exact h.add hs ht (.standing a)

variable [Engine ε]

theorem Alike.drive {s t : Session ε σ} (h : s.Alike t)
    (hs : Storage.AlwaysAccepts s.scheduler.store.storage)
    (ht : Storage.AlwaysAccepts t.scheduler.store.storage) (limit : Nat) :
    (s.driveFor limit).2.Alike (t.driveFor limit).2 ∧
      s.asked (.drive limit) = t.asked (.drive limit) := by
  obtain ⟨hd, hb⟩ := h.scheduler.driveFrom hs ht 0 limit
  exact ⟨⟨hd, h.labels⟩, hb⟩

theorem Alike.apply {s t : Session ε σ} (h : s.Alike t)
    (hs : Storage.AlwaysAccepts s.scheduler.store.storage)
    (ht : Storage.AlwaysAccepts t.scheduler.store.storage) {op : Op} (ho : op.noticesDisabled = false) :
    (s.apply op).Alike (t.apply op) ∧ s.asked op = t.asked op := by
  have hstart : s.start.Alike t.start := ⟨h.scheduler.start, h.labels⟩
  have hstop : s.stop.Alike t.stop := h.map (fun _ _ => rfl) fun _ => rfl
  have hstep : s.step.2.Alike t.step.2 :=
    h.map (f := fun c => c.singleStep.2) (fun _ _ => rfl) fun _ => rfl
  cases op with
  | start => exact ⟨hstart, h.scheduler.startBlocks_eq⟩
  | stop => exact ⟨hstop, rfl⟩
  | step => exact ⟨hstep, rfl⟩
  | tick =>
      refine ⟨⟨h.scheduler.tick (hs []) (ht []), h.labels⟩, ?_⟩
      simp only [asked, ticksOf, List.flatMap_singleton]
      exact h.scheduler.tickBlocks_eq
  | turn =>
      have hd := h.drive hs ht 1
      rwa [driveFor_one, driveFor_one] at hd
  | drive limit => exact h.drive hs ht limit
  | runTo a => cases ho
  | requestStop => exact ⟨h.map (fun _ _ => rfl) fun _ => rfl, rfl⟩
  | add b => exact ⟨h.add (hs []) (ht []) b, rfl⟩
  | addByName name => exact ⟨h.addByName (hs []) (ht []) name, rfl⟩
  | remove a => exact ⟨h.remove (hs []) (ht []) a, rfl⟩
  | toggle a => cases ho
  | request r =>
      cases r with
      | start => exact ⟨hstart, h.scheduler.startBlocks_eq⟩
      | stop => exact ⟨hstop, rfl⟩
      | step => exact ⟨hstep, rfl⟩
      | runTo a => cases ho
      | addBreakpoint a oneShot => exact ⟨h.add (hs []) (ht []) _, rfl⟩
      | addBreakByName name => exact ⟨h.addByName (hs []) (ht []) name, rfl⟩
      | removeBreakpoint a => exact ⟨h.remove (hs []) (ht []) a, rfl⟩
      | toggleBreakpoint a => cases ho
      | listBreakpoints => exact ⟨h, rfl⟩
      | getState => exact ⟨h, rfl⟩

theorem alike_run {s t : Session ε σ} (h : s.Alike t)
    (hs : Storage.AlwaysAccepts s.scheduler.store.storage)
    (ht : Storage.AlwaysAccepts t.scheduler.store.storage) {ops : List Op}
    (ho : ∀ op ∈ ops, op.noticesDisabled = false) :
    (s.run ops).Alike (t.run ops) ∧ s.along asked ops = t.along asked ops := by
  induction ops generalizing s t with
  | nil => exact ⟨h, rfl⟩
  | cons op ops ih =>
      have hkept : Kept fun s : Session ε σ => Storage.AlwaysAccepts s.scheduler.store.storage :=
        kept_of_commit Store.kept_alwaysAccepts
      obtain ⟨hop, hops⟩ := List.forall_mem_cons.mp ho
      obtain ⟨ha, hb⟩ := h.apply hs ht hop
      obtain ⟨hr, hbs⟩ := ih ha (hkept.apply hs op) (hkept.apply ht op) hops
      exact ⟨hr, congrArg₂ (· ++ ·) hb hbs⟩

theorem alike_run_replaced :
    let opened (text : String) : Session Scripted MemoryStorage :=
      create (.ofProgram #[10, 20, 30, 20, 40] [] 0 .empty) "p" [] ⟨.ofList [("p", text)]⟩ .channel
        .standard .still
    let s := opened "[\x7b\"address\":20,\"disabled\":true,\"oneShot\":true\x7d,\x7b\"address\":40\x7d]"
    let t := opened "[\x7b\"address\":30,\"disabled\":true\x7d,\x7b\"address\":40\x7d]"
    let ops : List Op :=
      [.start, .tick, .add (.single 20), .start, .tick, .remove 30, .remove 20, .start, .tick, .tick]
    (s.breakpoints ≠ t.breakpoints ∧ (s.run ops).breakpoints = (t.run ops).breakpoints) ∧
      (s.run ops).Alike (t.run ops) ∧ s.along asked ops = t.along asked ops := by
  intro opened s t ops
  have harmed : s.scheduler.store.set.armedPart = t.scheduler.store.set.armedPart := by decide +kernel
  have hops : ∀ op ∈ ops, op.noticesDisabled = false := by decide
  refine ⟨by decide +kernel, alike_run (s := s) (t := t) ⟨⟨rfl, harmed⟩, rfl⟩
    (MemoryStorage.alwaysAccepts _) (MemoryStorage.alwaysAccepts _) hops⟩

end Session

end RunControl
