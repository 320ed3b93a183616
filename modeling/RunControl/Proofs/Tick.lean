import RunControl.Proofs.Batch
import RunControl.Proofs.Commit
import RunControl.Scheduler

namespace RunControl

namespace Arming

variable {ε σ : Type} [Engine ε] [Storage σ]

theorem checkHit_of_notArmed {s : Store σ} {e : ε} (host : HostLog)
    (h : s.set.isArmedAt (Engine.instructionPointer e) = false) :
    checkHit s e host = (.ok .none, s, host) := by
  simp only [BreakpointSet.isArmedAt] at h
  cases hb : s.set.at? (Engine.instructionPointer e) with
  | none => simp [checkHit, hb]
  | some b =>
      have he : b.isEnabled = false := by simpa [hb] using h
      simp [checkHit, hb, Option.filter, he]

theorem exists_of_isArmedAt {s : BreakpointSet} {a : Address} (h : s.isArmedAt a = true) :
    ∃ b, s.at? a = some b ∧ b.isEnabled = true := by
  simp only [BreakpointSet.isArmedAt] at h
  cases hb : s.at? a with
  | none => simp [hb] at h
  | some b => exact ⟨b, rfl, by simpa [hb] using h⟩

theorem checkHit_of_standing {s : Store σ} {e : ε} (host : HostLog) {b : Breakpoint}
    (h : s.set.at? (Engine.instructionPointer e) = some b) (he : b.isEnabled = true)
    (ho : b.oneShot = false) :
    checkHit s e host = (.ok (.persistent (Engine.instructionPointer e)), s,
      host.push (.showTab breakpointsTab)) := by
  simp [checkHit, h, Option.filter, he, ho]

theorem checkHit_of_single {s : Store σ} {e : ε} (host : HostLog) {b : Breakpoint}
    (h : s.set.at? (Engine.instructionPointer e) = some b) (he : b.isEnabled = true)
    (ho : b.oneShot = true) :
    checkHit s e host =
      match s.commit (s.set.erase (Engine.instructionPointer e)) with
      | (.ok (), t) => (.ok (.transient (Engine.instructionPointer e)), t, host)
      | (.error err, t) => (.error err, t, host) := by
  have hc : s.set.contains (Engine.instructionPointer e) = true := by
    rw [BreakpointSet.contains_eq_isSome_at?, h]
    rfl
  simp only [checkHit, h, Option.filter, he, if_true, ho, Store.remove_eq, hc]
  cases hr : s.commit (s.set.erase (Engine.instructionPointer e)) with
  | mk r t => cases r <;> rfl

theorem checkHit_congr (s : Store σ) {e e' : ε} (host : HostLog)
    (h : Engine.instructionPointer e = Engine.instructionPointer e') :
    checkHit s e host = checkHit s e' host := by
  simp only [checkHit, h]

theorem stops_of_checkHit {s : Store σ} {e : ε} {host : HostLog} {hit : Hit}
    (h : (checkHit s e host).1 = .ok hit) :
    hit.stops = s.set.isArmedAt (Engine.instructionPointer e) := by
  cases ha : s.set.isArmedAt (Engine.instructionPointer e) with
  | false =>
      rw [checkHit_of_notArmed host ha] at h
      exact Except.ok.inj h ▸ rfl
  | true =>
      obtain ⟨b, hb, he⟩ := exists_of_isArmedAt ha
      cases ho : b.oneShot with
      | false =>
          rw [checkHit_of_standing host hb he ho] at h
          exact Except.ok.inj h ▸ rfl
      | true =>
          rw [checkHit_of_single host hb he ho] at h
          cases hr : s.commit (s.set.erase (Engine.instructionPointer e)) with
          | mk r t =>
              cases r with
              | error err => simp [hr] at h
              | ok u =>
                  simp only [hr] at h
                  exact Except.ok.inj h ▸ rfl

theorem checkHit_unstopped {s t : Store σ} {e : ε} {host told : HostLog} {hit : Hit}
    (h : checkHit s e host = (.ok hit, t, told)) (hh : hit.stops = false) :
    hit = .none ∧ t = s ∧ told = host := by
  have ha : s.set.isArmedAt (Engine.instructionPointer e) = false := by
    rw [← hh]
    exact (stops_of_checkHit (by rw [h])).symm
  rw [checkHit_of_notArmed host ha] at h
  cases h
  exact ⟨rfl, rfl, rfl⟩

theorem isArmedAt_of_checkHit_error {s : Store σ} {e : ε} {host : HostLog} {err : Error}
    (h : (checkHit s e host).1 = .error err) :
    s.set.isArmedAt (Engine.instructionPointer e) = true := by
  by_contra ha
  rw [checkHit_of_notArmed host (by simpa using ha)] at h
  exact absurd h (by simp)

end Arming

namespace Scheduler

variable {ε σ : Type}

def haltTold (state : Option CpuState) (host : HostLog) : HostLog :=
  match state with
  | some (.exit code) => host.push (.exit code)
  | some (.error message) => host.push (.error message)
  | _ => host

theorem reportHalt_eq (c : Scheduler ε σ) :
    c.reportHalt = { c with host := haltTold c.lastState c.host } := by
  obtain ⟨_, _, _, _, _, _, _, _, _, _, last, _⟩ := c
  rcases last with _ | _ | _ | _ | _ | _ <;> rfl

variable [Engine ε]

def startEngine (c : Scheduler ε σ) : ε :=
  let e := Engine.unblock c.engine
  if c.store.set.isArmedAt (Engine.instructionPointer e) then (Engine.run (Engine.unblock e) 1).2
  else e

def startState (c : Scheduler ε σ) : Option CpuState :=
  let e := Engine.unblock c.engine
  if c.store.set.isArmedAt (Engine.instructionPointer e) then
    some (Engine.run (Engine.unblock e) 1).1
  else c.lastState

theorem start_eq_self {c : Scheduler ε σ} (h : c.running = true) : c.start = c := by
  simp [start, h]

theorem start_of_idle {c : Scheduler ε σ} (h : c.running = false) :
    c.start = { c with
      engine := c.startEngine
      stopRequested := false
      running := true
      tickPending := true
      ticks := if c.tickPending then c.ticks else c.ticks.request
      lastState := c.startState
      lastHit := .none } := by
  simp only [start, h, Bool.false_eq_true, if_false, stepOff, startEngine, startState, singleStep,
    schedule]
  cases c.store.set.isArmedAt (Engine.instructionPointer (Engine.unblock c.engine)) <;>
    cases c.tickPending <;> simp

theorem start_store (c : Scheduler ε σ) : c.start.store = c.store := by
  cases h : c.running with
  | true => rw [start_eq_self h]
  | false => rw [start_of_idle h]

def batchEnd (c : Scheduler ε σ) : CpuState × ε :=
  Engine.batch c.store.set.enabled c.throughput.stepSize.toNat c.engine

def measured (c : Scheduler ε σ) : Throughput :=
  let e := c.store.set.enabled.foldl Engine.register c.engine
  let steps := Engine.instructionCount (Engine.run e c.throughput.stepSize.toNat).2 -
    Engine.instructionCount e
  (c.throughput.record (UInt64.ofNat steps) (c.stopwatch 0)).2

def batched (c : Scheduler ε σ) : Scheduler ε σ :=
  { c with
    engine := c.batchEnd.2
    arming := .idle
    throughput := c.measured
    stopwatch := c.stopwatch.later
    tickPending := false }

def examined (c : Scheduler ε σ) (store : Store σ) (host : HostLog) (hit : Hit) : Scheduler ε σ :=
  { c.batched with store, host, lastHit := hit, lastState := some c.batchEnd.1 }

variable [Storage σ]

inductive Ticked (c : Scheduler ε σ) : Scheduler ε σ → Prop
  | idle (h : c.running = false) : Ticked c { c with tickPending := false }
  | stopped (h : c.running = true) (hs : c.stopRequested = true) :
      Ticked c { c with tickPending := false, running := false }
  | failed (h : c.running = true) (hs : c.stopRequested = false) {err : Error} {store : Store σ}
      {host : HostLog} (hc : Arming.checkHit c.store c.batchEnd.2 c.host = (.error err, store, host)) :
      Ticked c { c.batched with store, host := host.push (.error err.message), running := false }
  | halted (h : c.running = true) (hs : c.stopRequested = false) {hit : Hit} {store : Store σ}
      {host : HostLog} (hc : Arming.checkHit c.store c.batchEnd.2 c.host = (.ok hit, store, host))
      (hh : hit.stops = true ∨ c.batchEnd.1.isRunning = false) :
      Ticked c { c.examined store host hit with
        host := haltTold (some c.batchEnd.1) host, running := false }
  | underway (h : c.running = true) (hs : c.stopRequested = false) {hit : Hit} {store : Store σ}
      {host : HostLog} (hc : Arming.checkHit c.store c.batchEnd.2 c.host = (.ok hit, store, host))
      (hh : hit.stops = false) (hr : c.batchEnd.1.isRunning = true) :
      Ticked c { c.examined store host hit with tickPending := true, ticks := c.ticks.request }

theorem tick_eq_idle {c : Scheduler ε σ} (h : c.running = false) :
    c.tick = { c with tickPending := false } := by
  simp [tick, h]

theorem tick_eq_stop {c : Scheduler ε σ} (hs : c.stopRequested = true) :
    c.tick = { c with tickPending := false, running := false } := by
  cases hr : c.running with
  | false => rw [tick_eq_idle hr, ← hr]
  | true => simp [tick, hr, hs, stop]

theorem tick_of_running {c : Scheduler ε σ} (hr : c.running = true) (hs : c.stopRequested = false) :
    c.tick = match ({ c with tickPending := false } : Scheduler ε σ).batchStep with
      | (.ok true, c) => c.schedule
      | (.ok false, c) => c.reportHalt.stop
      | (.error e, c) => (c.tell (.error e.message)).stop := by
  simp only [tick, hr, hs]
  rfl

theorem batchStep_eq (c : Scheduler ε σ) :
    ({ c with tickPending := false } : Scheduler ε σ).batchStep =
      match Arming.checkHit c.store c.batchEnd.2 c.host with
      | (r, store, host) => match r with
        | .error err => (.error err, { c.batched with store, host })
        | .ok hit => (.ok (!hit.stops && c.batchEnd.1.isRunning), c.examined store host hit) :=
  rfl

theorem ticked_tick (c : Scheduler ε σ) : Ticked c c.tick := by
  cases hr : c.running with
  | false =>
      rw [tick_eq_idle hr]
      exact .idle hr
  | true =>
      cases hs : c.stopRequested with
      | true =>
          rw [tick_eq_stop hs]
          exact .stopped hr hs
      | false =>
          rw [tick_of_running hr hs]
          rcases hc : Arming.checkHit c.store c.batchEnd.2 c.host with ⟨err | hit, store, host⟩
          · rw [batchStep_eq, hc]
            exact .failed hr hs hc
          · rw [batchStep_eq, hc]
            cases hg : !hit.stops && c.batchEnd.1.isRunning with
            | true =>
                simp only [Bool.and_eq_true, Bool.not_eq_true'] at hg
                simp only [hg.1, hg.2]
                exact .underway hr hs hc hg.1 hg.2
            | false =>
                have hh : hit.stops = true ∨ c.batchEnd.1.isRunning = false := by
                  rcases Bool.and_eq_false_iff.mp hg with hh | hb
                  · exact .inl (by simpa using hh)
                  · exact .inr hb
                simp only [hg, reportHalt_eq]
                exact .halted hr hs hc hh

theorem kept_or_batched (c : Scheduler ε σ) :
    (c.tick.engine = c.engine ∧ c.tick.arming = c.arming ∧ c.tick.throughput = c.throughput) ∨
      (c.tick.engine = c.batchEnd.2 ∧ c.tick.arming = .idle ∧ c.tick.throughput = c.measured) := by
  have ht := ticked_tick c
  generalize c.tick = d at ht
  cases ht with
  | idle hr => exact .inl ⟨rfl, rfl, rfl⟩
  | stopped hr hs => exact .inl ⟨rfl, rfl, rfl⟩
  | failed hr hs hc => exact .inr ⟨rfl, rfl, rfl⟩
  | halted hr hs hc hh => exact .inr ⟨rfl, rfl, rfl⟩
  | underway hr hs hc hh hn => exact .inr ⟨rfl, rfl, rfl⟩

structure FoundNothing (c d : Scheduler ε σ) : Prop where
  store_eq : d.store = c.store
  host_eq : d.host = c.host
  lastHit_eq : d.lastHit = .none
  unarmed : c.store.set.isArmedAt (Engine.instructionPointer d.engine) = false

theorem foundNothing_of_running {c : Scheduler ε σ} (h : c.tick.running = true) :
    FoundNothing c c.tick := by
  have ht := ticked_tick c
  generalize c.tick = d at h ht
  cases ht with
  | idle hr => exact absurd (h.symm.trans hr) Bool.noConfusion
  | stopped hr hs => cases h
  | failed hr hs hc => cases h
  | halted hr hs hc hh => cases h
  | underway hr hs hc hh hn =>
      have hstops := Arming.stops_of_checkHit (congrArg Prod.fst hc)
      obtain ⟨rfl, rfl, rfl⟩ := Arming.checkHit_unstopped hc hh
      exact ⟨rfl, rfl, rfl, hstops.symm⟩

theorem exists_driveFrom_of_idle {c : Scheduler ε σ} (h : c.running = false) (k limit : Nat) :
    ∃ ticks pending, (driveFrom k limit c).2 = { c with ticks, tickPending := pending } := by
  induction limit generalizing c k with
  | zero => exact ⟨c.ticks, c.tickPending, rfl⟩
  | succ limit ih =>
      simp only [driveFrom, takeTick?]
      cases c.ticks.take? with
      | none => exact ⟨c.ticks, c.tickPending, rfl⟩
      | some ticks =>
          have ht := tick_eq_idle (c := { c with ticks }) h
          simp only [Option.map_some, ht]
          exact ih (c := { c with ticks, tickPending := false }) h (k + 1)

end Scheduler

end RunControl
