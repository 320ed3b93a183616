import RunControl.Proofs.History

namespace RunControl

inductive Block where
  | unblock
  | single
  | batch (armed : List Address) (limit : Nat)
  deriving DecidableEq, Repr

namespace Block

def calls : Block → List EngineCall
  | .unblock => [.unblock]
  | .single => [.run 1]
  | .batch armed limit => armed.map .register ++ .run limit :: armed.map .clear

def isBatch : Block → Bool
  | .batch _ _ => true
  | _ => false

end Block

theorem BreakpointSet.enabled_ascending (s : BreakpointSet) : s.enabled.Pairwise (· < ·) :=
  List.pairwise_map.mpr (s.toList_ascending.sublist List.filter_sublist)

namespace Engine

variable {ε : Type} [Engine ε]

def after (blocks : List Block) (e : ε) : ε :=
  (blocks.flatMap Block.calls).foldl perform e

theorem after_append (bs cs : List Block) (e : ε) : after (bs ++ cs) e = after cs (after bs e) := by
  simp only [after, List.flatMap_append, List.foldl_append]

theorem after_batch (armed : List Address) (limit : Nat) (e : ε) :
    after [.batch armed limit] e = (batch armed limit e).2 := by
  simp only [after, Block.calls, List.flatMap_singleton, List.foldl_append, List.foldl_cons,
    List.foldl_map]
  rfl

/-- That `registered` says which breakpoints an engine holds: registering adds no other, clearing
takes one away, and nothing else adds any. -/
structure Registry (registered : ε → Address → Prop) : Prop where
  of_register : ∀ e b a, registered (Engine.register e b) a → a = b ∨ registered e a
  of_clear : ∀ e b a, registered (Engine.clear e b) a → a ≠ b ∧ registered e a
  of_run : ∀ e n a, registered (Engine.run e n).2 a → registered e a
  of_unblock : ∀ e a, registered (Engine.unblock e) a → registered e a

namespace Registry

variable {registered : ε → Address → Prop}

theorem of_foldl_register (h : Registry registered) {l : List Address} {e : ε} {a : Address}
    (ha : registered (l.foldl Engine.register e) a) : a ∈ l ∨ registered e a := by
  induction l generalizing e with
  | nil => exact .inr ha
  | cons b l ih =>
      rcases ih ha with hl | hb
      · exact .inl (List.mem_cons_of_mem b hl)
      · rcases h.of_register e b a hb with rfl | he
        · exact .inl List.mem_cons_self
        · exact .inr he

theorem of_foldl_clear (h : Registry registered) {l : List Address} {e : ε} {a : Address}
    (ha : registered (l.foldl Engine.clear e) a) : a ∉ l ∧ registered e a := by
  induction l generalizing e with
  | nil => exact ⟨List.not_mem_nil, ha⟩
  | cons b l ih =>
      obtain ⟨hl, hb⟩ := ih ha
      obtain ⟨hne, he⟩ := h.of_clear e b a hb
      exact ⟨List.not_mem_cons_of_ne_of_not_mem hne hl, he⟩

theorem of_batch (h : Registry registered) {armed : List Address} {limit : Nat} {e : ε} {a : Address}
    (ha : registered (batch armed limit e).2 a) : registered e a := by
  obtain ⟨hn, hrun⟩ := h.of_foldl_clear ha
  rcases h.of_foldl_register (h.of_run _ limit a hrun) with hm | he
  · exact absurd hm hn
  · exact he

theorem recorded (h : Registry registered) : Registry fun r : Recorded ε => registered r.engine where
  of_register r := h.of_register r.engine
  of_clear r := h.of_clear r.engine
  of_run r := h.of_run r.engine
  of_unblock r := h.of_unblock r.engine

end Registry

end Engine

theorem Scripted.registry : Engine.Registry fun (e : Scripted) a => e.registered.contains a = true where
  of_register e b a h := by
    have hc := Table.contains_insert e.registered b a ()
    rw [show (Engine.register e b).registered = e.registered.insert b () from rfl, hc] at h
    simpa using h
  of_clear e b a h := by
    have hc := Table.contains_erase e.registered b a
    rw [show (Engine.clear e b).registered = e.registered.erase b from rfl, hc] at h
    simpa using h
  of_run e n a h := by
    rwa [show (Engine.run e n).2.registered = e.registered from e.registered_run n] at h
  of_unblock e a h := by
    rwa [show (Engine.unblock e).registered = e.registered from e.registered_unblock] at h

namespace Recorded

variable {ε : Type} [Engine ε]

theorem after_eq (blocks : List Block) (r : Recorded ε) :
    Engine.after blocks r =
      ⟨Engine.after blocks r.engine, r.calls ++ (blocks.flatMap Block.calls).toArray⟩ := by
  simp only [Engine.after]
  induction blocks.flatMap Block.calls generalizing r with
  | nil => simp
  | cons c cs ih =>
      rw [List.foldl_cons, List.foldl_cons, ih]
      cases c <;> simp [Engine.perform, Engine.run, Engine.register, Engine.clear, Engine.unblock, note]

def hold (held : KeySet Address) : EngineCall → KeySet Address
  | .register a => held.insert a ()
  | .clear a => held.erase a
  | _ => held

def held (r : Recorded ε) : KeySet Address :=
  r.calls.toList.foldl hold .empty

omit [Engine ε] in
theorem held_note (r : Recorded ε) (c : EngineCall) (e : ε) : (r.note c e).held = hold r.held c := by
  simp [held, note, List.foldl_append]

theorem registry_held : Engine.Registry fun (r : Recorded ε) a => r.held.contains a = true where
  of_register r b a h := by
    simpa [Engine.register, held_note, hold, Table.contains_insert] using h
  of_clear r b a h := by
    simpa [Engine.clear, held_note, hold, Table.contains_erase] using h
  of_run r n a h := by
    simpa [Engine.run, held_note, hold] using h
  of_unblock r a h := by
    simpa [Engine.unblock, held_note, hold] using h

end Recorded

namespace Scheduler

variable {ε σ : Type}

def tickBlocks (c : Scheduler ε σ) : List Block :=
  if c.running && !c.stopRequested then [.batch c.store.set.enabled c.throughput.stepSize.toNat]
  else []

theorem filter_tickBlocks (c : Scheduler ε σ) :
    c.tickBlocks.filter Block.isBatch = c.tickBlocks := by
  simp only [tickBlocks]
  split <;> rfl

variable [Engine ε]

def startBlocks (c : Scheduler ε σ) : List Block :=
  if c.running then []
  else if c.store.set.isArmedAt (Engine.instructionPointer (Engine.unblock c.engine)) then
    [.unblock, .unblock, .single]
  else [.unblock]

theorem filter_startBlocks (c : Scheduler ε σ) : c.startBlocks.filter Block.isBatch = [] := by
  simp only [startBlocks]
  split
  · rfl
  · split <;> rfl

theorem engine_start (c : Scheduler ε σ) : c.start.engine = Engine.after c.startBlocks c.engine := by
  cases hr : c.running with
  | true =>
      rw [start_eq_self hr, startBlocks, hr]
      rfl
  | false =>
      rw [start_of_idle hr, startBlocks, hr]
      simp only [startEngine, Bool.false_eq_true, if_false]
      split <;> rfl

structure Unarmed (registered : ε → Address → Prop) (c : Scheduler ε σ) : Prop where
  armed_eq : c.arming.armed = []
  clear : ∀ a, ¬ registered c.engine a

variable {registered : ε → Address → Prop}

theorem unarmed_start (hr : Engine.Registry registered) {c : Scheduler ε σ}
    (h : c.Unarmed registered) : c.start.Unarmed registered := by
  cases hrun : c.running with
  | true => rwa [start_eq_self hrun]
  | false =>
      rw [start_of_idle hrun]
      refine ⟨h.armed_eq, fun a ha => h.clear a ?_⟩
      simp only [startEngine] at ha
      split at ha
      · exact hr.of_unblock _ a (hr.of_unblock _ a (hr.of_run _ 1 a ha))
      · exact hr.of_unblock _ a ha

variable [Storage σ]

theorem engine_tick (c : Scheduler ε σ) : c.tick.engine = Engine.after c.tickBlocks c.engine := by
  have hb := Engine.after_batch c.store.set.enabled c.throughput.stepSize.toNat c.engine
  have ht := ticked_tick c
  generalize c.tick = d at ht
  cases ht with
  | idle hr => simp only [tickBlocks, hr, Bool.false_and]; rfl
  | stopped hr hs => simp only [tickBlocks, hr, hs]; rfl
  | failed hr hs hc => simp only [tickBlocks, hr, hs]; exact hb.symm
  | halted hr hs hc hh => simp only [tickBlocks, hr, hs]; exact hb.symm
  | underway hr hs hc hh hn => simp only [tickBlocks, hr, hs]; exact hb.symm

theorem unarmed_tick (hr : Engine.Registry registered) {c : Scheduler ε σ}
    (h : c.Unarmed registered) : c.tick.Unarmed registered := by
  obtain ⟨he, ha, -⟩ | ⟨he, ha, -⟩ := c.kept_or_batched
  · refine ⟨?_, fun a hreg => h.clear a ?_⟩
    · rw [ha]
      exact h.armed_eq
    · rwa [he] at hreg
  · refine ⟨?_, fun a hreg => ?_⟩
    · rw [ha]
      rfl
    · rw [he] at hreg
      exact h.clear a (hr.of_batch hreg)

def ticksOf : Nat → Scheduler ε σ → List (Scheduler ε σ)
  | 0, _ => []
  | limit + 1, c =>
      match c.takeTick? with
      | none => []
      | some c => c :: ticksOf limit c.tick

theorem engine_driveFrom (c : Scheduler ε σ) (k limit : Nat) :
    (driveFrom k limit c).2.engine =
      Engine.after ((ticksOf limit c).flatMap tickBlocks) c.engine := by
  induction limit generalizing c k with
  | zero => rfl
  | succ limit ih =>
      simp only [driveFrom, ticksOf, takeTick?]
      cases c.ticks.take? with
      | none => rfl
      | some ticks =>
          have ht := engine_tick ({ c with ticks } : Scheduler ε σ)
          simp only [Option.map_some, List.flatMap_cons, Engine.after_append]
          rw [ih, ht]

theorem unarmed_ticksOf (hr : Engine.Registry registered) {c : Scheduler ε σ}
    (h : c.Unarmed registered) {limit : Nat} {d : Scheduler ε σ} (hd : d ∈ ticksOf limit c) :
    d.Unarmed registered := by
  induction limit generalizing c with
  | zero => cases hd
  | succ limit ih =>
      simp only [ticksOf, takeTick?] at hd
      cases ht : c.ticks.take? with
      | none => simp [ht] at hd
      | some ticks =>
          have hc : ({ c with ticks } : Scheduler ε σ).Unarmed registered := ⟨h.armed_eq, h.clear⟩
          simp only [ht, Option.map_some, List.mem_cons] at hd
          rcases hd with rfl | hd
          · exact hc
          · exact ih (unarmed_tick hr hc) hd

end Scheduler

namespace Session

variable {ε σ : Type} [Engine ε] [Storage σ]

def ticksOf (s : Session ε σ) : Op → List (Scheduler ε σ)
  | .tick => [s.scheduler]
  | .turn => s.scheduler.ticksOf 1
  | .drive limit => s.scheduler.ticksOf limit
  | _ => []

def runToBlocks (s : Session ε σ) (a : Address) : List Block :=
  if s.scheduler.store.set.contains a then s.scheduler.startBlocks
  else
    match s.add (.single a) with
    | (.ok (), s) => s.scheduler.startBlocks
    | (.error _, _) => []

def asked (s : Session ε σ) : Op → List Block
  | .start | .request .start => s.scheduler.startBlocks
  | .step | .request .step => [.unblock, .single]
  | .runTo a | .request (.runTo a) => s.runToBlocks a
  | op => (s.ticksOf op).flatMap Scheduler.tickBlocks

def along {α : Type} (f : Session ε σ → Op → List α) (s : Session ε σ) : List Op → List α
  | [] => []
  | op :: ops => f s op ++ along f (s.apply op) ops

theorem driveFor_one (s : Session ε σ) : (s.driveFor 1).2 = s.turn := by
  simp only [driveFor, Scheduler.driveFor, Scheduler.driveFrom, turn]
  cases s.scheduler.takeTick? <;> rfl

theorem runTo_blocks (s : Session ε σ) (a : Address) :
    ∃ store, let t : Session ε σ := { s with scheduler := { s.scheduler with store } }
      ((s.runTo a).2 = t ∧ s.runToBlocks a = []) ∨
        ((s.runTo a).2 = t.start ∧ s.runToBlocks a = t.scheduler.startBlocks) := by
  simp only [runTo, runToBlocks]
  split
  · exact ⟨s.scheduler.store, .inr ⟨rfl, rfl⟩⟩
  · refine ⟨(s.scheduler.store.add (.single a)).2, ?_⟩
    simp only [add, edit]
    rcases s.scheduler.store.add (.single a) with ⟨err | u, store⟩
    · exact .inl ⟨rfl, rfl⟩
    · exact .inr ⟨rfl, rfl⟩

theorem engine_runTo (s : Session ε σ) (a : Address) :
    (s.runTo a).2.scheduler.engine = Engine.after (s.runToBlocks a) s.scheduler.engine := by
  obtain ⟨store, ⟨hr, hb⟩ | ⟨hr, hb⟩⟩ := s.runTo_blocks a
  · rw [hr, hb]
    rfl
  · rw [hr, hb]
    exact Scheduler.engine_start { s.scheduler with store }

omit [Engine ε] in
theorem engine_addByName (s : Session ε σ) (name : String) :
    (s.addByName name).2.scheduler.engine = s.scheduler.engine := by
  obtain ⟨store, h⟩ := s.exists_addByName name
  rw [h]

theorem engine_apply (s : Session ε σ) (op : Op) :
    (s.apply op).scheduler.engine = Engine.after (s.asked op) s.scheduler.engine := by
  cases op with
  | start => exact s.scheduler.engine_start
  | tick =>
      simp only [asked, ticksOf, List.flatMap_singleton]
      exact s.scheduler.engine_tick
  | turn =>
      have hd := s.scheduler.engine_driveFrom 0 1
      rwa [show (s.apply .turn) = (s.driveFor 1).2 from s.driveFor_one.symm]
  | drive limit => exact s.scheduler.engine_driveFrom 0 limit
  | runTo a => exact s.engine_runTo a
  | addByName name => exact s.engine_addByName name
  | request r =>
      cases r with
      | start => exact s.scheduler.engine_start
      | runTo a => exact s.engine_runTo a
      | addBreakByName name => exact s.engine_addByName name
      | _ => rfl
  | _ => rfl

theorem engine_run (s : Session ε σ) (ops : List Op) :
    (s.run ops).scheduler.engine = Engine.after (s.along asked ops) s.scheduler.engine := by
  induction ops generalizing s with
  | nil => rfl
  | cons op ops ih =>
      rw [along, Engine.after_append, ← engine_apply]
      exact ih (s.apply op)

theorem filter_runToBlocks (s : Session ε σ) (a : Address) :
    (s.runToBlocks a).filter Block.isBatch = [] := by
  obtain ⟨store, ⟨-, hb⟩ | ⟨-, hb⟩⟩ := s.runTo_blocks a
  · rw [hb]
    rfl
  · rw [hb]
    exact Scheduler.filter_startBlocks _

theorem filter_asked (s : Session ε σ) (op : Op) :
    (s.asked op).filter Block.isBatch = (s.ticksOf op).flatMap Scheduler.tickBlocks := by
  have ht : ∀ cs : List (Scheduler ε σ), (cs.flatMap Scheduler.tickBlocks).filter Block.isBatch =
      cs.flatMap Scheduler.tickBlocks := by
    intro cs
    simp only [List.filter_flatMap, Scheduler.filter_tickBlocks]
  cases op with
  | start => exact Scheduler.filter_startBlocks _
  | step => rfl
  | runTo a => exact s.filter_runToBlocks a
  | request r =>
      cases r with
      | start => exact Scheduler.filter_startBlocks _
      | step => rfl
      | runTo a => exact s.filter_runToBlocks a
      | _ => exact ht []
  | _ => exact ht _

theorem filter_along_asked (s : Session ε σ) (ops : List Op) :
    (s.along asked ops).filter Block.isBatch =
      (s.along ticksOf ops).flatMap Scheduler.tickBlocks := by
  induction ops generalizing s with
  | nil => rfl
  | cons op ops ih => rw [along, along, List.filter_append, List.flatMap_append, filter_asked, ih]

theorem ascending_of_batch {s : Session ε σ} {ops : List Op} {armed : List Address} {limit : Nat}
    (h : .batch armed limit ∈ s.along asked ops) : armed.Pairwise (· < ·) := by
  have hb : .batch armed limit ∈ (s.along asked ops).filter Block.isBatch :=
    List.mem_filter.mpr ⟨h, rfl⟩
  rw [filter_along_asked] at hb
  obtain ⟨c, -, hc⟩ := List.mem_flatMap.mp hb
  simp only [Scheduler.tickBlocks] at hc
  split at hc
  · obtain ⟨rfl, rfl⟩ := Block.batch.inj (List.mem_singleton.mp hc)
    exact c.store.set.enabled_ascending
  · cases hc

variable {registered : ε → Address → Prop}

theorem kept_unarmed (hr : Engine.Registry registered) :
    Kept fun s : Session ε σ => s.scheduler.Unarmed registered where
  start h := Scheduler.unarmed_start hr h
  stop h := ⟨h.armed_eq, h.clear⟩
  step h := ⟨h.armed_eq, fun a ha => h.clear a (hr.of_unblock _ a (hr.of_run _ 1 a ha))⟩
  tick h := Scheduler.unarmed_tick hr h
  turn h := turn_of_tick (P := fun s => s.scheduler.Unarmed registered) h fun _ =>
    Scheduler.unarmed_tick hr ⟨h.armed_eq, h.clear⟩
  requestStop h := ⟨h.armed_eq, h.clear⟩
  add _ h := ⟨h.armed_eq, h.clear⟩
  remove _ h := ⟨h.armed_eq, h.clear⟩
  toggle _ h := ⟨h.armed_eq, h.clear⟩

theorem unarmed_ticksOf (hr : Engine.Registry registered) {s : Session ε σ}
    (h : s.scheduler.Unarmed registered) {op : Op} {c : Scheduler ε σ} (hc : c ∈ s.ticksOf op) :
    c.Unarmed registered := by
  cases op with
  | tick => exact List.mem_singleton.mp hc ▸ h
  | turn => exact Scheduler.unarmed_ticksOf hr h hc
  | drive limit => exact Scheduler.unarmed_ticksOf hr h hc
  | _ => cases hc

theorem unarmed_along (hr : Engine.Registry registered) {s : Session ε σ}
    (h : s.scheduler.Unarmed registered) {ops : List Op} {c : Scheduler ε σ}
    (hc : c ∈ s.along ticksOf ops) : c.Unarmed registered := by
  induction ops generalizing s with
  | nil => cases hc
  | cons op ops ih =>
      rcases List.mem_append.mp hc with hop | hops
      · exact unarmed_ticksOf hr h hop
      · exact ih ((kept_unarmed hr).apply h op) hops

structure Bracketed (registered : ε → Address → Prop) (s : Session (Recorded ε) σ) (ops : List Op) :
    Prop where
  calls_eq : (s.run ops).scheduler.engine.calls.toList = (s.along asked ops).flatMap Block.calls
  batches_eq : (s.along asked ops).filter Block.isBatch =
    (s.along ticksOf ops).flatMap Scheduler.tickBlocks
  ascending : ∀ armed limit, .batch armed limit ∈ s.along asked ops → armed.Pairwise (· < ·)
  begun : ∀ c ∈ s.along ticksOf ops, c.Unarmed fun r => registered r.engine
  ended : (s.run ops).scheduler.Unarmed fun r => registered r.engine
  balanced : ∀ a, (s.run ops).scheduler.engine.held.contains a = false

theorem bracketed_run (hr : Engine.Registry registered) {e : ε} (he : ∀ a, ¬ registered e a)
    (key : String) (given : List (Address × String)) (storage : σ) (ticks : TickRequests)
    (config : SchedulerConfig) (w : Stopwatch) (ops : List Op) :
    (create (Recorded.fresh e) key given storage ticks config w).Bracketed registered ops := by
  have hu : (create (Recorded.fresh e) key given storage ticks config w).scheduler.Unarmed
      fun r => registered r.engine := ⟨rfl, he⟩
  refine ⟨?_, filter_along_asked _ ops, fun _ _ => ascending_of_batch,
    fun _ => unarmed_along hr.recorded hu, (kept_unarmed hr.recorded).run hu ops, ?_⟩
  · rw [engine_run, Recorded.after_eq]
    exact (Array.toList_append ..).trans (List.nil_append _)
  · have hh := (kept_unarmed Recorded.registry_held).run
      (s := create (Recorded.fresh e) key given storage ticks config w)
      ⟨rfl, fun _ => Bool.false_ne_true⟩ ops
    exact fun a => Bool.eq_false_of_not_eq_true (hh.clear a)

theorem bracketed_run_refused :
    (∀ a, ¬ (Scripted.ofProgram #[10, 20, 30, 20] [1] 0 .empty).registered.contains a = true) ∧
      (create (Recorded.fresh (Scripted.ofProgram #[10, 20, 30, 20] [1] 0 .empty)) "p" []
        (⟨.empty, 0, [3]⟩ : FlakyStorage) .channel .standard .still).Bracketed
          (fun e a => e.registered.contains a = true)
          [.add (.single 30), .request (.addBreakpoint 20 false), .start, .drive 5, .requestStop, .start,
            .turn, .tick] := by
  have he : ∀ a, ¬ (Scripted.ofProgram #[10, 20, 30, 20] [1] 0 .empty).registered.contains a = true :=
    fun _ => Bool.false_ne_true
  exact ⟨he, bracketed_run Scripted.registry he "p" [] (⟨.empty, 0, [3]⟩ : FlakyStorage) .channel
    .standard .still [.add (.single 30), .request (.addBreakpoint 20 false), .start, .drive 5,
      .requestStop, .start, .turn, .tick]⟩

example :
    ((create (Recorded.fresh (Scripted.ofProgram #[10, 20, 30] [] 0 .empty)) "p" [] MemoryStorage.empty
      .channel .standard .still).run [.add (.standing 20), .start, .turn, .step]).scheduler.engine.calls =
        #[.unblock, .register 20, .run 5000, .clear 20, .unblock, .run 1] := by
  decide +kernel

end Session

end RunControl
