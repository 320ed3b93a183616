import RunControl.Proofs.Drive

namespace RunControl

namespace Scripted

theorem unblock_core (e : Scripted) : e.core.unblock = e.unblock.core := by
  obtain ⟨_, _, _, _, _, blocked, _, last, _, _, _⟩ := e
  cases blocked <;> rcases last with _ | _ | _ | _ | _ | _ <;> rfl

theorem walk_core (e : Scripted) (n p : Nat) : e.core.walk n p = e.walk n p := by
  induction n generalizing p with
  | zero => rfl
  | succ n ih =>
      rw [walk_succ, walk_succ, ih]
      rfl

theorem run_core {e : Scripted} (h : e.Coherent) (limit : Nat) : e.core.run limit = e.run limit := by
  cases hx : e.exited with
  | true =>
      have he : e.core = e := by simp [core, hx]
      rw [he]
  | false =>
      have hn : e.core.last = none := by simp [core, hx]
      have hr : e.run limit = if e.blocked then e.report .blocked else e.runOn limit := by
        simp only [run]
        split
        · rename_i code hc
          simp [exited, hc] at hx
        · rename_i message hm
          exact absurd hm (h.not_failed message)
        · rfl
      have hc : e.core.run limit = if e.blocked then e.core.report .blocked else e.core.runOn limit := by
        simp only [run, hn]
        rfl
      rw [hr, hc]
      split
      · rfl
      · simp only [runOn, walk_core]
        rfl

end Scripted

namespace Scheduler

variable {σ : Type}

theorem unpaced_unpaced (c : Scheduler Scripted σ) : c.unpaced.unpaced = c.unpaced := by
  simp only [unpaced, Scripted.core_core]

theorem core_startEngine {c : Scheduler Scripted σ} (h : c.engine.Coherent) :
    c.unpaced.startEngine.core = c.startEngine.core := by
  have hu : c.unpaced.engine.unblock = c.engine.unblock.core := c.engine.unblock_core
  show (if c.store.set.isArmedAt c.unpaced.engine.unblock.instructionPointer then
    (c.unpaced.engine.unblock.unblock.run 1).2 else c.unpaced.engine.unblock).core =
    (if c.store.set.isArmedAt c.engine.unblock.instructionPointer then
      (c.engine.unblock.unblock.run 1).2 else c.engine.unblock).core
  rw [hu, Scripted.instructionPointer_core, Scripted.unblock_core, Scripted.run_core h.unblock.unblock]
  split
  · rfl
  · exact c.engine.unblock.core_core

theorem unpaced_start {c : Scheduler Scripted σ} (h : c.engine.Coherent) :
    c.unpaced.start.unpaced = c.start.unpaced := by
  cases hr : c.running with
  | true => rw [start_eq_self hr, start_eq_self (c := c.unpaced) hr, unpaced_unpaced]
  | false =>
      have he := core_startEngine h
      rw [start_of_idle hr, start_of_idle (c := c.unpaced) hr]
      generalize c.unpaced.startEngine = e at he ⊢
      simp only [unpaced, he]
      rfl

theorem unpaced_singleStep {c : Scheduler Scripted σ} (h : c.engine.Coherent) :
    c.unpaced.singleStep.2.unpaced = c.singleStep.2.unpaced := by
  have hu : c.unpaced.engine.unblock.run 1 = c.engine.unblock.run 1 := by
    have hb : c.unpaced.engine.unblock = c.engine.unblock.core := c.engine.unblock_core
    rw [hb, Scripted.run_core h.unblock]
  show ({ c.unpaced with engine := (c.unpaced.engine.unblock.run 1).2 } :
    Scheduler Scripted σ).unpaced = _
  rw [hu]
  rfl

variable [Storage σ]

theorem unpaced_settled (c : Scheduler Scripted σ) :
    c.unpaced.settled.unpaced = c.settled.unpaced := by
  have he : c.unpaced.engine.settle c.unpaced.store.set = c.engine.settle c.store.set :=
    c.engine.settle_core c.store.set
  have hc : Arming.checkHit c.unpaced.store (c.engine.settle c.store.set) c.unpaced.host =
      Arming.checkHit c.store (c.engine.settle c.store.set) c.host := rfl
  simp only [settled, he, hc]
  rcases Arming.checkHit c.store (c.engine.settle c.store.set) c.host with ⟨err | hit, store, host⟩ <;>
    rfl

def driven (c : Scheduler Scripted σ) : Scheduler Scripted σ :=
  if c.running then c.settled
  else { c with ticks := .queue 0 true, tickPending := c.tickPending && c.ticks.waiting == 0 }

theorem unpaced_driven (c : Scheduler Scripted σ) : c.unpaced.driven.unpaced = c.driven.unpaced := by
  have hr : c.unpaced.running = c.running := rfl
  simp only [driven, hr]
  split
  · exact unpaced_settled c
  · simp only [unpaced, Scripted.core_core]

structure Ready (c : Scheduler Scripted σ) : Prop where
  unstopped : c.stopRequested = false
  chained : c.Chained
  disarmed : c.Disarmed
  paced : c.throughput.Paced

theorem unpaced_drive_of_ready {c : Scheduler Scripted σ} (h : c.Ready) :
    c.drive.2.unpaced = c.driven.unpaced := by
  obtain ⟨n, hn, hp⟩ := h.chained.queue
  cases hr : c.running with
  | true =>
      have hlt := hp (h.chained.pending hr)
      have hu : c.Underway := ⟨hr, h.unstopped, h.chained.unhit hr, h.disarmed, h.paced⟩
      rw [unpaced_drive hu ⟨n - 1, by rw [hn, Nat.sub_add_cancel hlt]⟩, driven, hr, if_pos rfl]
  | false =>
      have hl : n ≤ c.ticksLeft := by
        simp only [ticksLeft, hn, TickRequests.waiting]
        exact Nat.le_add_right _ _
      have hd : c.drive.2 = (driveFrom 0 c.ticksLeft c).2 := rfl
      rw [hd, driveFrom_of_idle hr hn hl, driven, hr]
      simp only [hn, TickRequests.waiting]
      rfl

end Scheduler

namespace DebugResponse

def withoutPace : DebugResponse → DebugResponse
  | .state s => .state { s with stepSize := 0, instrPerMs := 0, cpuState := none }
  | r => r

end DebugResponse

namespace Session

variable {σ : Type}

def unpaced (s : Session Scripted σ) : Session Scripted σ :=
  { s with scheduler := s.scheduler.unpaced }

theorem unpaced_unpaced (s : Session Scripted σ) : s.unpaced.unpaced = s.unpaced := by
  simp only [unpaced, Scheduler.unpaced_unpaced]

theorem unpaced_edit {α : Type} (s : Session Scripted σ) (f : Store σ → α × Store σ) :
    s.unpaced.edit f = ((s.edit f).1, (s.edit f).2.unpaced) :=
  rfl

theorem unpaced_start {s : Session Scripted σ} (h : s.scheduler.engine.Coherent) :
    s.unpaced.start.unpaced = s.start.unpaced := by
  simp only [start, unpaced, Scheduler.unpaced_start h]

theorem unpaced_step {s : Session Scripted σ} (h : s.scheduler.engine.Coherent) :
    s.unpaced.step.2.unpaced = s.step.2.unpaced := by
  have hc := Scheduler.unpaced_singleStep h
  show ({ s with scheduler := s.scheduler.unpaced.singleStep.2.unpaced } : Session Scripted σ) = _
  rw [hc]
  rfl

theorem withoutPace_state {s t : Session Scripted σ} (h : s.unpaced = t.unpaced) :
    (DebugResponse.state s.state).withoutPace = (DebugResponse.state t.state).withoutPace := by
  show (DebugResponse.state s.unpaced.state).withoutPace = _
  rw [h]
  rfl

theorem unstopped_start {s : Session Scripted σ} (h : s.scheduler.stopRequested = false) :
    s.start.scheduler.stopRequested = false := by
  cases hr : s.scheduler.running with
  | true =>
      rw [start, Scheduler.start_eq_self hr]
      exact h
  | false =>
      rw [start, Scheduler.start_of_idle hr]

variable [Storage σ]

theorem unpaced_runTo {s : Session Scripted σ} (h : s.scheduler.engine.Coherent) (a : Address) :
    (s.unpaced.runTo a).1 = (s.runTo a).1 ∧
      (s.unpaced.runTo a).2.unpaced = (s.runTo a).2.unpaced := by
  have hs : s.unpaced.scheduler.store = s.scheduler.store := rfl
  have hadd : s.unpaced.add (.single a) = ((s.add (.single a)).1, (s.add (.single a)).2.unpaced) :=
    unpaced_edit s _
  have he : (s.add (.single a)).2.scheduler.engine = s.scheduler.engine := rfl
  simp only [runTo, hs, hadd]
  split
  · exact ⟨rfl, unpaced_start h⟩
  · rcases hr : s.add (.single a) with ⟨err | u, t⟩
    · exact ⟨rfl, t.unpaced_unpaced⟩
    · rw [hr] at he
      exact ⟨rfl, unpaced_start (he ▸ h)⟩

theorem unpaced_addByName (s : Session Scripted σ) (name : String) :
    (s.unpaced.addByName name).1 = (s.addByName name).1 ∧
      (s.unpaced.addByName name).2.unpaced = (s.addByName name).2.unpaced := by
  have hl : s.unpaced.labels = s.labels := rfl
  simp only [addByName, hl]
  cases s.labels.resolve? name with
  | none => exact ⟨rfl, s.unpaced_unpaced⟩
  | some a => exact ⟨rfl, (s.add (.standing a)).2.unpaced_unpaced⟩

theorem unpaced_handle {s : Session Scripted σ} (h : s.scheduler.engine.Coherent) (r : DebugRequest) :
    (s.unpaced.handle r).1.withoutPace = (s.handle r).1.withoutPace ∧
      (s.unpaced.handle r).2.unpaced = (s.handle r).2.unpaced := by
  cases r with
  | start => exact ⟨rfl, unpaced_start h⟩
  | stop => exact ⟨rfl, s.stop.unpaced_unpaced⟩
  | step => exact ⟨withoutPace_state (unpaced_step h), unpaced_step h⟩
  | runTo a =>
      obtain ⟨h1, h2⟩ := unpaced_runTo h a
      exact ⟨congrArg (fun r => (DebugResponse.ofResult (fun _ => .ok) r).withoutPace) h1, h2⟩
  | addBreakpoint a oneShot => exact ⟨rfl, (s.add ⟨⟨false, oneShot⟩, a⟩).2.unpaced_unpaced⟩
  | addBreakByName name =>
      obtain ⟨h1, h2⟩ := unpaced_addByName s name
      exact ⟨congrArg (fun r => (DebugResponse.ofResult .resolved r).withoutPace) h1, h2⟩
  | removeBreakpoint a => exact ⟨rfl, (s.remove a).2.unpaced_unpaced⟩
  | toggleBreakpoint a => exact ⟨rfl, (s.toggle a).2.unpaced_unpaced⟩
  | listBreakpoints => exact ⟨rfl, s.unpaced_unpaced⟩
  | getState => exact ⟨withoutPace_state s.unpaced_unpaced, s.unpaced_unpaced⟩

theorem unstopped_handle {s : Session Scripted σ} (h : s.scheduler.stopRequested = false)
    (r : DebugRequest) : (s.handle r).2.scheduler.stopRequested = false := by
  cases r with
  | start => exact unstopped_start h
  | runTo a =>
      change (s.runTo a).2.scheduler.stopRequested = false
      obtain ⟨store, hr | hr⟩ := s.exists_runTo a
      · rwa [hr]
      · rw [hr]
        exact unstopped_start h
  | addBreakByName name =>
      change (s.addByName name).2.scheduler.stopRequested = false
      obtain ⟨store, hr⟩ := s.exists_addByName name
      rwa [hr]
  | _ => exact h

def serve (s : Session Scripted σ) (r : DebugRequest) : DebugResponse × Session Scripted σ :=
  let (response, s) := s.handle r
  (response, s.drive.2)

theorem ready_handle {s : Session Scripted σ} (h : s.scheduler.Ready) (r : DebugRequest) :
    (s.handle r).2.scheduler.Ready :=
  ⟨unstopped_handle h.unstopped r, kept_chained.handle h.chained r, kept_disarmed.handle h.disarmed r,
    kept_paced.handle h.paced r⟩

theorem unpaced_drive {s : Session Scripted σ} (h : s.scheduler.Ready) :
    s.drive.2.unpaced = { s with scheduler := s.scheduler.driven.unpaced } := by
  have hd := Scheduler.unpaced_drive_of_ready h
  show ({ s with scheduler := s.scheduler.drive.2.unpaced } : Session Scripted σ) = _
  rw [hd]

theorem unstopped_driven {c : Scheduler Scripted σ} (h : c.stopRequested = false) :
    c.driven.stopRequested = false := by
  simp only [Scheduler.driven]
  split
  · simp only [Scheduler.settled]
    split <;> exact h
  · exact h

theorem ready_drive {s : Session Scripted σ} (h : s.scheduler.Ready) :
    s.drive.2.scheduler.Ready := by
  have hu : s.drive.2.scheduler.unpaced = s.scheduler.driven.unpaced :=
    Scheduler.unpaced_drive_of_ready h
  have hd : s.drive.2 = s.apply (.drive s.scheduler.ticksLeft) := rfl
  refine ⟨?_, ?_, ?_, ?_⟩
  · have hs : s.drive.2.scheduler.unpaced.stopRequested = s.scheduler.driven.stopRequested := by
      rw [hu]
      rfl
    exact hs.trans (unstopped_driven h.unstopped)
  · exact hd ▸ kept_chained.apply h.chained _
  · exact hd ▸ kept_disarmed.apply h.disarmed _
  · exact hd ▸ kept_paced.apply h.paced _

theorem ready_serve {s : Session Scripted σ} (h : s.scheduler.Ready) (r : DebugRequest) :
    (s.serve r).2.scheduler.Ready :=
  ready_drive (ready_handle h r)

structure View where
  pointer : Address
  count : Nat
  blocked : Bool
  blocks : KeySet Nat
  exited : Bool
  running : Bool
  breakpoints : List Breakpoint
  saved : Option String
  lastHit : Hit
  host : HostLog
  response : DebugResponse

def view (s : Session Scripted σ) (response : DebugResponse) : View where
  pointer := s.scheduler.engine.instructionPointer
  count := s.scheduler.engine.count
  blocked := s.scheduler.engine.blocked
  blocks := s.scheduler.engine.blocks
  exited := s.scheduler.engine.exited
  running := s.scheduler.running
  breakpoints := s.breakpoints
  saved := s.scheduler.store.saved?
  lastHit := s.scheduler.lastHit
  host := s.scheduler.host
  response := response.withoutPace

def views (s : Session Scripted σ) : List DebugRequest → List View
  | [] => []
  | r :: rs => (s.serve r).2.view (s.serve r).1 :: views (s.serve r).2 rs

theorem view_unpaced (s : Session Scripted σ) (response : DebugResponse) :
    s.unpaced.view response = s.view response := by
  have hx : s.unpaced.scheduler.engine.exited = s.scheduler.engine.exited :=
    Scripted.exited_core s.scheduler.engine
  simp only [view, hx]
  rfl

theorem view_congr {s t : Session Scripted σ} (h : s.unpaced = t.unpaced)
    {response response' : DebugResponse} (hr : response.withoutPace = response'.withoutPace) :
    s.view response = t.view response' := by
  rw [← view_unpaced s, ← view_unpaced t, h]
  simp only [view, hr]

theorem serve_congr {s t : Session Scripted σ} (hs : s.scheduler.Ready) (ht : t.scheduler.Ready)
    (h : s.unpaced = t.unpaced) (r : DebugRequest) :
    (s.serve r).1.withoutPace = (t.serve r).1.withoutPace ∧
      (s.serve r).2.unpaced = (t.serve r).2.unpaced := by
  obtain ⟨hs1, hs2⟩ := unpaced_handle hs.disarmed.coherent r
  obtain ⟨ht1, ht2⟩ := unpaced_handle ht.disarmed.coherent r
  have h1 : (s.handle r).1.withoutPace = (t.handle r).1.withoutPace := by
    rw [← hs1, ← ht1, h]
  have h2 : (s.handle r).2.unpaced = (t.handle r).2.unpaced := by
    rw [← hs2, ← ht2, h]
  refine ⟨h1, ?_⟩
  have hd : ∀ u : Session Scripted σ, u.scheduler.Ready →
      u.drive.2.unpaced =
        { u.unpaced with scheduler := u.unpaced.scheduler.driven.unpaced } := by
    intro u hu
    have hn : u.unpaced.scheduler.driven.unpaced = u.scheduler.driven.unpaced :=
      Scheduler.unpaced_driven u.scheduler
    rw [unpaced_drive hu, hn]
    rfl
  have hs' := hd _ (ready_handle hs r)
  rw [h2, ← hd _ (ready_handle ht r)] at hs'
  exact hs'

theorem views_congr {s t : Session Scripted σ} (hs : s.scheduler.Ready) (ht : t.scheduler.Ready)
    (h : s.unpaced = t.unpaced) (rs : List DebugRequest) : s.views rs = t.views rs := by
  induction rs generalizing s t with
  | nil => rfl
  | cons r rs ih =>
      obtain ⟨h1, h2⟩ := serve_congr hs ht h r
      have hv := view_congr h2 h1
      have hi := ih (ready_serve hs r) (ready_serve ht r) h2
      rw [views, views, hv, hi]

theorem ready_create {e : Scripted} (he : e.Reachable) (hr : e.registered = .empty) (key : String)
    (given : List (Address × String)) (storage : σ) {config : SchedulerConfig}
    (hc : DebuggerConfig.fault? config = none) (w : Stopwatch) :
    (create e key given storage .channel config w).scheduler.Ready :=
  ⟨rfl, ⟨⟨0, rfl, nofun⟩, nofun, nofun⟩, ⟨he.coherent, hr⟩, Throughput.paced_ofConfig hc⟩

theorem views_create {e : Scripted} (he : e.Reachable) (hr : e.registered = .empty) (key : String)
    (given : List (Address × String)) (storage : σ) {config config' : SchedulerConfig}
    (hc : DebuggerConfig.fault? config = none) (hc' : DebuggerConfig.fault? config' = none)
    (w w' : Stopwatch) (rs : List DebugRequest) :
    (create e key given storage .channel config w).views rs =
      (create e key given storage .channel config' w').views rs :=
  views_congr (ready_create he hr key given storage hc w) (ready_create he hr key given storage hc' w')
    rfl rs

theorem views_create_single :
    (create (.ofProgram #[10, 20, 30, 20] [2] 7 .empty) "p" [] (⟨.empty, 0, [2]⟩ : FlakyStorage) .channel
      ⟨1, 0, 8, 1, some 1⟩ .still : Session Scripted FlakyStorage).views
        [.addBreakpoint 20 false, .runTo 30, .start, .start] =
      (create (.ofProgram #[10, 20, 30, 20] [2] 7 .empty) "p" [] (⟨.empty, 0, [2]⟩ : FlakyStorage) .channel
        .standard fun _ => 3).views [.addBreakpoint 20 false, .runTo 30, .start, .start] := by
  have he : (Scripted.ofProgram #[10, 20, 30, 20] [2] 7 .empty).Reachable := .ofProgram ..
  have hc : DebuggerConfig.fault? ⟨1, 0, 8, 1, some 1⟩ = none := by decide +kernel
  have hc' : DebuggerConfig.fault? .standard = none := by decide +kernel
  exact views_create he rfl "p" [] (⟨.empty, 0, [2]⟩ : FlakyStorage) hc hc' .still (fun _ => 3)
    [.addBreakpoint 20 false, .runTo 30, .start, .start]

end Session

end RunControl
