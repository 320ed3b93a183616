import RunControl.Proofs.Tick
import RunControl.Request

namespace RunControl

variable {ε σ : Type} [Engine ε] [Storage σ]

def Store.KeptByCommit (Q : Store σ → Prop) : Prop :=
  ∀ s set, Q s → Q (s.commit set).2

namespace Store.KeptByCommit

variable {Q : Store σ → Prop}

theorem add (hQ : KeptByCommit Q) {s : Store σ} (h : Q s) (b : Breakpoint) : Q (s.add b).2 := by
  rw [Store.add_eq]
  exact hQ s _ h

theorem remove (hQ : KeptByCommit Q) {s : Store σ} (h : Q s) (a : Address) : Q (s.remove a).2 := by
  simp only [Store.remove_eq]
  split
  · exact hQ s _ h
  · exact h

theorem toggle (hQ : KeptByCommit Q) {s : Store σ} (h : Q s) (a : Address) : Q (s.toggle a).2 := by
  simp only [Store.toggle_eq]
  split
  · exact h
  · exact hQ s _ h

theorem checkHit (hQ : KeptByCommit Q) {s : Store σ} (h : Q s) (e : ε) (host : HostLog) :
    Q (Arming.checkHit s e host).2.1 := by
  simp only [Arming.checkHit]
  split
  · exact h
  · split
    · exact hQ.remove h _
    · exact h

theorem tick (hQ : KeptByCommit Q) {c : Scheduler ε σ} (h : Q c.store) : Q c.tick.store := by
  have hc := hQ.checkHit h c.batchEnd.2 c.host
  have ht := c.ticked_tick
  generalize c.tick = d at ht
  cases ht with
  | idle hr => exact h
  | stopped hr hs => exact h
  | failed hr hs he => rwa [he] at hc
  | halted hr hs he hh => rwa [he] at hc
  | underway hr hs he hh hr => rwa [he] at hc

end Store.KeptByCommit

namespace Session

inductive Op where
  | start
  | stop
  | step
  | tick
  | turn
  | drive (limit : Nat)
  | runTo (address : Address)
  | requestStop
  | add (breakpoint : Breakpoint)
  | addByName (name : String)
  | remove (address : Address)
  | toggle (address : Address)
  | request (request : DebugRequest)
  deriving DecidableEq, Repr

def turn (s : Session ε σ) : Session ε σ :=
  match s.scheduler.takeTick? with
  | none => s
  | some c => { s with scheduler := c.tick }

def apply (s : Session ε σ) : Op → Session ε σ
  | .start => s.start
  | .stop => s.stop
  | .step => s.step.2
  | .tick => s.tick
  | .turn => s.turn
  | .drive limit => (s.driveFor limit).2
  | .runTo a => (s.runTo a).2
  | .requestStop => s.requestStop
  | .add b => (s.add b).2
  | .addByName name => (s.addByName name).2
  | .remove a => (s.remove a).2
  | .toggle a => (s.toggle a).2
  | .request r => (s.handle r).2

def run (s : Session ε σ) (ops : List Op) : Session ε σ :=
  ops.foldl apply s

structure KeptInTurn (P : Session ε σ → Prop) : Prop where
  start {s} : P s → P s.start
  stop {s} : P s → P s.stop
  step {s} : P s → P s.step.2
  turn {s} : P s → P s.turn
  requestStop {s} : P s → P s.requestStop
  add {s} (b : Breakpoint) : P s → P (s.add b).2
  remove {s} (a : Address) : P s → P (s.remove a).2
  toggle {s} (a : Address) : P s → P (s.toggle a).2

structure Kept (P : Session ε σ → Prop) : Prop extends KeptInTurn P where
  tick {s} : P s → P s.tick

theorem turn_cases (s : Session ε σ) :
    s.turn = s ∨ ∃ ticks, s.scheduler.ticks.take? = some ticks ∧
      s.turn = { s with scheduler := ({ s.scheduler with ticks } : Scheduler ε σ).tick } := by
  cases h : s.scheduler.ticks.take? with
  | none => exact .inl (by simp [turn, Scheduler.takeTick?, h])
  | some ticks => exact .inr ⟨ticks, rfl, by simp [turn, Scheduler.takeTick?, h]⟩

theorem turn_of_tick {P : Session ε σ → Prop} {s : Session ε σ} (h : P s)
    (ht : ∀ ticks, P { s with scheduler := ({ s.scheduler with ticks } : Scheduler ε σ).tick }) :
    P s.turn := by
  rcases turn_cases s with hturn | ⟨ticks, -, hturn⟩
  · rwa [hturn]
  · rw [hturn]
    exact ht ticks

theorem driveFrom_succ (s : Session ε σ) (n limit : Nat) :
    (Scheduler.driveFrom n (limit + 1) s.scheduler).2 =
      match s.scheduler.takeTick? with
      | none => s.scheduler
      | some _ => (Scheduler.driveFrom (n + 1) limit s.turn.scheduler).2 := by
  simp only [Scheduler.driveFrom, turn]
  cases s.scheduler.takeTick? <;> rfl

omit [Engine ε] in
theorem exists_addByName (s : Session ε σ) (name : String) :
    ∃ store, (s.addByName name).2 = { s with scheduler := { s.scheduler with store } } := by
  simp only [addByName]
  cases s.labels.resolve? name with
  | none => exact ⟨s.scheduler.store, rfl⟩
  | some a => exact ⟨(s.scheduler.store.add (.standing a)).2, rfl⟩

theorem exists_runTo (s : Session ε σ) (a : Address) :
    ∃ store, let t : Session ε σ := { s with scheduler := { s.scheduler with store } }
      (s.runTo a).2 = t ∨ (s.runTo a).2 = t.start := by
  simp only [runTo]
  split
  · exact ⟨s.scheduler.store, .inr rfl⟩
  · refine ⟨(s.scheduler.store.add (.single a)).2, ?_⟩
    simp only [add, edit]
    rcases s.scheduler.store.add (.single a) with ⟨err | u, store⟩
    · exact .inl rfl
    · exact .inr rfl

namespace KeptInTurn

variable {P : Session ε σ → Prop}

theorem driveFrom (h : KeptInTurn P) {s : Session ε σ} (hs : P s) (n limit : Nat) :
    P { s with scheduler := (Scheduler.driveFrom n limit s.scheduler).2 } := by
  induction limit generalizing s n with
  | zero => exact hs
  | succ limit ih =>
      rw [driveFrom_succ]
      cases ht : s.scheduler.takeTick? with
      | none => exact hs
      | some c =>
          have hl : s.turn.labels = s.labels := by simp [Session.turn, ht]
          have hi := ih (h.turn hs) (n + 1)
          rwa [hl] at hi

theorem runTo (h : KeptInTurn P) {s : Session ε σ} (hs : P s) (a : Address) : P (s.runTo a).2 := by
  simp only [Session.runTo]
  split
  · exact h.start hs
  · have ha := h.add (.single a) hs
    cases hr : s.add (.single a) with
    | mk r t =>
        rw [hr] at ha
        cases r with
        | error err => exact ha
        | ok u => exact h.start ha

theorem addByName (h : KeptInTurn P) {s : Session ε σ} (hs : P s) (name : String) :
    P (s.addByName name).2 := by
  simp only [Session.addByName]
  split
  · exact hs
  · exact h.add _ hs

theorem handle (h : KeptInTurn P) {s : Session ε σ} (hs : P s) (r : DebugRequest) : P (s.handle r).2 := by
  cases r with
  | start => exact h.start hs
  | stop => exact h.stop hs
  | step => exact h.step hs
  | runTo a => exact h.runTo hs a
  | addBreakpoint a oneShot => exact h.add _ hs
  | addBreakByName name => exact h.addByName hs name
  | removeBreakpoint a => exact h.remove a hs
  | toggleBreakpoint a => exact h.toggle a hs
  | listBreakpoints => exact hs
  | getState => exact hs

theorem apply (h : KeptInTurn P) {s : Session ε σ} (hs : P s) {op : Op} (ho : op ≠ .tick) :
    P (s.apply op) := by
  cases op with
  | start => exact h.start hs
  | stop => exact h.stop hs
  | step => exact h.step hs
  | tick => exact absurd rfl ho
  | turn => exact h.turn hs
  | drive limit => exact h.driveFrom hs 0 limit
  | runTo a => exact h.runTo hs a
  | requestStop => exact h.requestStop hs
  | add b => exact h.add b hs
  | addByName name => exact h.addByName hs name
  | remove a => exact h.remove a hs
  | toggle a => exact h.toggle a hs
  | request r => exact h.handle hs r

theorem run (h : KeptInTurn P) {s : Session ε σ} (hs : P s) {ops : List Op} (ho : .tick ∉ ops) :
    P (s.run ops) := by
  induction ops generalizing s with
  | nil => exact hs
  | cons op ops ih =>
      have hop : op ≠ .tick := fun ht => ho (ht ▸ List.mem_cons_self)
      exact ih (h.apply hs hop) fun hm => ho (List.mem_cons_of_mem op hm)

end KeptInTurn

namespace Kept

variable {P : Session ε σ → Prop}

theorem apply (h : Kept P) {s : Session ε σ} (hs : P s) (op : Op) : P (s.apply op) := by
  by_cases ho : op = .tick
  · subst ho
    exact h.tick hs
  · exact h.toKeptInTurn.apply hs ho

theorem run (h : Kept P) {s : Session ε σ} (hs : P s) (ops : List Op) : P (s.run ops) := by
  induction ops generalizing s with
  | nil => exact hs
  | cons op ops ih => exact ih (h.apply hs op)

end Kept

theorem kept_of_commit {Q : Store σ → Prop} (hQ : Store.KeptByCommit Q) :
    Kept fun s : Session ε σ => Q s.scheduler.store where
  start {s} h := by
    rw [start, s.scheduler.start_store]
    exact h
  stop h := h
  step h := h
  tick h := hQ.tick h
  turn h := turn_of_tick (P := fun s => Q s.scheduler.store) h fun _ => hQ.tick h
  requestStop h := h
  add b h := hQ.add h b
  remove a h := hQ.remove h a
  toggle a h := hQ.toggle h a

end Session

end RunControl
