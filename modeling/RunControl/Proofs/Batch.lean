import RunControl.Arming
import RunControl.Proofs.Walk

namespace RunControl

def Engine.batch {ε : Type} [Engine ε] (armed : List Address) (limit : Nat) (e : ε) : CpuState × ε :=
  let (state, e) := Engine.run (armed.foldl Engine.register e) limit
  (state, armed.foldl Engine.clear e)

namespace Scripted

def armed (e : Scripted) (s : BreakpointSet) : Scripted :=
  { e with registered := s.enabled.foldl (fun t a => t.insert a ()) e.registered }

theorem Coherent.armed {e : Scripted} (h : e.Coherent) (s : BreakpointSet) : (e.armed s).Coherent :=
  h.withRegistered _

theorem foldl_register (l : List Address) (e : Scripted) :
    l.foldl Engine.register e =
      { e with registered := l.foldl (fun t a => t.insert a ()) e.registered } := by
  induction l generalizing e with
  | nil => rfl
  | cons a l ih => exact ih _

theorem foldl_clear (l : List Address) (e : Scripted) :
    l.foldl Engine.clear e = { e with registered := l.foldl Table.erase e.registered } := by
  induction l generalizing e with
  | nil => rfl
  | cons a l ih => exact ih _

theorem contains_foldl_insert (l : List Address) (t : KeySet Address) (a : Address) :
    (l.foldl (fun t a => t.insert a ()) t).contains a = (decide (a ∈ l) || t.contains a) := by
  induction l generalizing t with
  | nil => simp
  | cons b l ih =>
      rw [List.foldl_cons, ih, Table.contains_insert]
      by_cases hb : a = b <;> by_cases hl : a ∈ l <;> simp [hb, hl]

theorem contains_foldl_erase (l : List Address) (t : KeySet Address) (a : Address) :
    (l.foldl Table.erase t).contains a = (!decide (a ∈ l) && t.contains a) := by
  induction l generalizing t with
  | nil => simp
  | cons b l ih =>
      rw [List.foldl_cons, ih, Table.contains_erase]
      by_cases hb : a = b <;> by_cases hl : a ∈ l <;> simp [hb, hl]

theorem contains_armed {e : Scripted} (hr : e.registered = .empty) (s : BreakpointSet)
    (a : Address) : (e.armed s).registered.contains a = s.isArmedAt a := by
  simp only [armed, contains_foldl_insert, hr, Table.contains_empty, Bool.or_false,
    BreakpointSet.mem_enabled_iff]
  cases s.isArmedAt a <;> rfl

theorem isFree_armed {e : Scripted} (hr : e.registered = .empty) (s : BreakpointSet) (j : Nat) :
    (e.armed s).isFree j =
      ((e.program[j]?).any (fun a => !s.isArmedAt a) && !e.blocks.contains j) := by
  have hb : (e.armed s).blocks = e.blocks := rfl
  obtain hj | ⟨a, hj⟩ := Option.eq_none_or_eq_some e.program[j]?
  · have hp : (e.armed s).program[j]? = none := hj
    simp [isFree, hp, hj]
  · have hp : (e.armed s).program[j]? = some a := hj
    simp [isFree, hp, hj, hb, contains_armed hr]

theorem foldl_clear_armed {e : Scripted} (hr : e.registered = .empty) (s : BreakpointSet) :
    s.enabled.foldl Table.erase (e.armed s).registered = .empty := by
  apply Table.ext_contains
  intro a
  rw [contains_foldl_erase, contains_armed hr]
  by_cases ha : a ∈ s.enabled
  · simp [ha]
  · have hn : s.isArmedAt a = false := by
      simpa using fun h => ha (BreakpointSet.mem_enabled_iff.mpr h)
    simp [hn]

theorem registered_run (e : Scripted) (limit : Nat) : (e.run limit).2.registered = e.registered := by
  simp only [run]
  split
  · rfl
  · rfl
  · split
    · rfl
    · simp only [runOn]
      split <;> rfl

theorem registered_unblock (e : Scripted) : e.unblock.registered = e.registered := by
  simp only [unblock]
  split <;> rfl

theorem batch_eq {e : Scripted} (hr : e.registered = .empty) (s : BreakpointSet) (limit : Nat) :
    Engine.batch s.enabled limit e =
      (((e.armed s).run limit).1, { ((e.armed s).run limit).2 with registered := .empty }) := by
  simp only [Engine.batch, foldl_register, foldl_clear]
  show (((e.armed s).run limit).1, { ((e.armed s).run limit).2 with
    registered := s.enabled.foldl Table.erase ((e.armed s).run limit).2.registered }) = _
  rw [registered_run, foldl_clear_armed hr]

theorem Coherent.batch {e : Scripted} (h : e.Coherent) (s : BreakpointSet) (limit : Nat) :
    (Engine.batch s.enabled limit e).2.Coherent := by
  simp only [Engine.batch, foldl_register, foldl_clear]
  exact ((h.armed s).run limit).withRegistered _

theorem registered_batch {e : Scripted} (hr : e.registered = .empty) (s : BreakpointSet)
    (limit : Nat) : (Engine.batch s.enabled limit e).2.registered = .empty := by
  rw [batch_eq hr]

theorem batch_of_exited {e : Scripted} (h : e.Coherent) (hr : e.registered = .empty)
    (hx : e.exited = true) (s : BreakpointSet) (limit : Nat) :
    Engine.batch s.enabled limit e = (.exit e.exitCode, e) := by
  rw [batch_eq hr, Coherent.run_of_exited (h.armed s) hx]
  simp only [armed, ← hr]

theorem batch_of_blocked {e : Scripted} (h : e.Coherent) (hr : e.registered = .empty)
    (hx : e.exited = false) (hb : e.blocked = true) (s : BreakpointSet) (limit : Nat) :
    Engine.batch s.enabled limit e = (.blocked, { e with last := some .blocked }) := by
  rw [batch_eq hr, Coherent.run_of_blocked (h.armed s) hx hb]
  simp only [armed, ← hr]

def restAt (e : Scripted) (s : BreakpointSet) : Nat :=
  (e.armed s).restFrom e.position

theorem batch_of_free {e : Scripted} (h : e.Coherent) (hr : e.registered = .empty)
    (hx : e.exited = false) (hb : e.blocked = false) (s : BreakpointSet) (limit : Nat) :
    let q := min (e.position + limit) (e.restAt s)
    let state := (e.armed s).stateAt limit q
    Engine.batch s.enabled limit e = (state, e.moveTo q (state == .blocked) (some state)) := by
  intro q state
  rw [batch_eq hr, Coherent.run_of_free (h.armed s) hx hb]
  simp only [armed, ← hr]
  rfl

def core (e : Scripted) : Scripted :=
  { e with last := if e.exited then e.last else none }

def settle (e : Scripted) (s : BreakpointSet) : Scripted :=
  if e.blocked then { e with last := none }
  else
    e.moveTo (e.restAt s) ((e.program[e.restAt s]?).any fun a => !s.isArmedAt a)
      (if e.restAt s = e.program.size then some (.exit e.exitCode) else none)

theorem core_core (e : Scripted) : e.core.core = e.core := by
  obtain ⟨_, _, _, _, _, _, _, last, _, _, _⟩ := e
  rcases last with _ | _ | _ | _ | _ | _ <;> rfl

theorem exited_core (e : Scripted) : e.core.exited = e.exited := by
  obtain ⟨_, _, _, _, _, _, _, last, _, _, _⟩ := e
  rcases last with _ | _ | _ | _ | _ | _ <;> rfl

theorem instructionPointer_core (e : Scripted) : e.core.instructionPointer = e.instructionPointer :=
  rfl

theorem core_settle (e : Scripted) (s : BreakpointSet) : (e.settle s).core = e.settle s := by
  simp only [settle]
  split
  · rfl
  · split <;> rfl

theorem le_restAt (e : Scripted) (s : BreakpointSet) : e.position ≤ e.restAt s :=
  le_restFrom _ _

theorem restAt_le_size {e : Scripted} (h : e.Coherent) (s : BreakpointSet) :
    e.restAt s ≤ e.program.size :=
  restFrom_le_size (e := e.armed s) h.position_le

theorem restAt_core (e : Scripted) (s : BreakpointSet) : e.core.restAt s = e.restAt s := by
  apply restFrom_unique (e.le_restAt s)
  · intro j h1 h2
    exact isFree_of_lt_restFrom (e := e.armed s) h1 h2
  · exact isFree_restFrom (e.armed s) e.position

theorem settle_core (e : Scripted) (s : BreakpointSet) : e.core.settle s = e.settle s := by
  rw [settle, settle, restAt_core]
  rfl

theorem exited_of_position_eq {e : Scripted} (h : e.Coherent) (hx : e.exited = true) :
    e.position = e.program.size ∧ e.last = some (.exit e.exitCode) ∧ e.blocked = false := by
  simp only [exited] at hx
  split at hx
  · rename_i code hc
    obtain ⟨hp, rfl⟩ := h.end_of_exit code hc
    refine ⟨hp, hc, ?_⟩
    by_contra hb
    have hlt := h.lt_of_blocked (by simpa using hb)
    omega
  · exact absurd hx Bool.false_ne_true

theorem last_batch {e : Scripted} (h : e.Coherent) (hr : e.registered = .empty)
    (s : BreakpointSet) (limit : Nat) :
    (Engine.batch s.enabled limit e).2.last = some (Engine.batch s.enabled limit e).1 := by
  cases hx : e.exited with
  | true =>
      rw [batch_of_exited h hr hx]
      exact (exited_of_position_eq h hx).2.1
  | false =>
      cases hb : e.blocked with
      | true => rw [batch_of_blocked h hr hx hb]
      | false =>
          rw [batch_of_free h hr hx hb]
          rfl

theorem instructionPointer_moveTo {e : Scripted} {q : Nat} (hq : q < e.program.size) (b : Bool)
    (l : Option CpuState) : (e.moveTo q b l).instructionPointer = e.program[q] := by
  simp [instructionPointer, moveTo, Array.getElem?_eq_getElem hq]

theorem moveTo_moveTo {e : Scripted} {q r : Nat} (h1 : e.position ≤ q) (h2 : q ≤ r) (b c : Bool)
    (l m : Option CpuState) : (e.moveTo q b l).moveTo r c m = e.moveTo r c m := by
  have hc : e.count + (q - e.position) + (r - q) = e.count + (r - e.position) := by omega
  simp only [moveTo, hc]

theorem restFrom_moveTo {e : Scripted} {q : Nat} (h1 : e.position ≤ q)
    (h2 : q ≤ e.restFrom e.position) (b : Bool) (l : Option CpuState) :
    (e.moveTo q b l).restFrom q = e.restFrom e.position := by
  apply restFrom_unique h2
  · intro j hj hr
    exact isFree_of_lt_restFrom (e := e) (h1.trans hj) hr
  · exact e.isFree_restFrom e.position

theorem restAt_moveTo {e : Scripted} {s : BreakpointSet} {q : Nat} (h1 : e.position ≤ q)
    (h2 : q ≤ e.restAt s) (b : Bool) (l : Option CpuState) :
    (e.moveTo q b l).restAt s = e.restAt s :=
  restFrom_moveTo (e := e.armed s) h1 h2 b l

theorem settle_moveTo {e : Scripted} {s : BreakpointSet} {q : Nat} (hb : e.blocked = false)
    (h1 : e.position ≤ q) (h2 : q ≤ e.restAt s) (l : Option CpuState) :
    (e.moveTo q false l).settle s = e.settle s := by
  have hm : (e.moveTo q false l).blocked = false := rfl
  rw [settle, settle, hm, hb, restAt_moveTo h1 h2]
  exact moveTo_moveTo h1 h2 ..

theorem stateAt_isRunning {e : Scripted} {limit q : Nat}
    (h : (e.stateAt limit q).isRunning = true) :
    q ≠ e.program.size ∧ q = e.position + limit := by
  simp only [stateAt] at h
  split at h
  · exact absurd h Bool.false_ne_true
  · rename_i hs
    split at h
    · rename_i hl
      exact ⟨hs, hl⟩
    · rcases e.halt?_cases q with hc | hc <;> simp [hc, CpuState.isRunning] at h

theorem settle_batch {e : Scripted} (h : e.Coherent) (hr : e.registered = .empty)
    (s : BreakpointSet) (limit : Nat)
    (hs : (Engine.batch s.enabled limit e).1.isRunning = true) :
    (Engine.batch s.enabled limit e).2.settle s = e.settle s ∧
      (Engine.batch s.enabled limit e).2.position = e.position + limit ∧
      (Engine.batch s.enabled limit e).2.position < e.program.size ∧
      (Engine.batch s.enabled limit e).2.program = e.program := by
  cases hx : e.exited with
  | true =>
      rw [batch_of_exited h hr hx] at hs
      exact absurd hs Bool.false_ne_true
  | false =>
      cases hb : e.blocked with
      | true =>
          rw [batch_of_blocked h hr hx hb] at hs
          exact absurd hs Bool.false_ne_true
      | false =>
          rw [batch_of_free h hr hx hb] at hs ⊢
          have hrun : ((e.armed s).stateAt limit (min (e.position + limit) (e.restAt s))) = .running := by
            cases hc : (e.armed s).stateAt limit (min (e.position + limit) (e.restAt s)) <;>
              simp [hc, CpuState.isRunning] at hs ⊢
          obtain ⟨hn, hl⟩ := stateAt_isRunning hs
          have hge := e.le_restAt s
          have hle := restAt_le_size h s
          have hsize : (e.armed s).program.size = e.program.size := rfl
          have hpos : (e.armed s).position = e.position := rfl
          rw [hrun]
          exact ⟨settle_moveTo hb (by omega) (by omega) _, by show min _ _ = _; omega,
            by show min _ _ < _; omega, rfl⟩

theorem stateAt_end (e : Scripted) (s : BreakpointSet) (limit : Nat) :
    (e.armed s).stateAt limit e.program.size = .exit e.exitCode :=
  if_pos rfl

theorem stateAt_of_lt {e : Scripted} (hr : e.registered = .empty) (s : BreakpointSet) (limit : Nat)
    {q : Nat} (hq : q < e.program.size) :
    (e.armed s).stateAt limit q =
      if q = e.position + limit then .running
      else if s.isArmedAt e.program[q] then .debugBreak else .blocked := by
  have hp : (e.armed s).program = e.program := rfl
  simp only [stateAt, hp, if_neg (Nat.ne_of_lt hq), halt?, Array.getElem?_eq_getElem hq,
    contains_armed hr]
  rfl

theorem eq_restAt_of_halt {e : Scripted} (h : e.Coherent) (hr : e.registered = .empty)
    {s : BreakpointSet} {limit : Nat}
    (hs : ((e.armed s).stateAt limit (min (e.position + limit) (e.restAt s))).isRunning = false ∨
      s.isArmedAt (e.moveTo (min (e.position + limit) (e.restAt s)) false none).instructionPointer =
        true) :
    min (e.position + limit) (e.restAt s) = e.restAt s := by
  have hle := restAt_le_size h s
  by_contra hq
  have hl : min (e.position + limit) (e.restAt s) = e.position + limit := by omega
  have hlt : e.position + limit < e.program.size := by omega
  rw [hl] at hs
  rcases hs with hs | hs
  · rw [stateAt_of_lt hr s limit hlt, if_pos rfl] at hs
    exact Bool.false_ne_true hs.symm
  · rw [instructionPointer_moveTo hlt] at hs
    have hf := isFree_of_lt_restFrom (e := e.armed s) (p := e.position)
      (Nat.le_add_right e.position limit) (by show _ < e.restAt s; omega)
    rw [isFree_armed hr, Array.getElem?_eq_getElem hlt] at hf
    simp [hs] at hf

theorem core_batch {e : Scripted} (h : e.Coherent) (hr : e.registered = .empty)
    (s : BreakpointSet) (limit : Nat)
    (hs : (Engine.batch s.enabled limit e).1.isRunning = false ∨
      s.isArmedAt (Engine.batch s.enabled limit e).2.instructionPointer = true) :
    (Engine.batch s.enabled limit e).2.core = e.settle s := by
  cases hx : e.exited with
  | true =>
      obtain ⟨hp, hlast, hb⟩ := exited_of_position_eq h hx
      have hge := e.le_restAt s
      have hle := restAt_le_size h s
      have hrest : e.restAt s = e.program.size := by omega
      rw [batch_of_exited h hr hx, settle, hb, hrest]
      simp [core, moveTo, hx, hp, hb, hlast]
  | false =>
      cases hb : e.blocked with
      | true =>
          rw [batch_of_blocked h hr hx hb, settle, hb]
          simp [core, exited]
      | false =>
          rw [batch_of_free h hr hx hb] at hs ⊢
          have hq := eq_restAt_of_halt h hr hs
          rw [hq] at hs ⊢
          rw [settle, hb]
          rcases Nat.eq_or_lt_of_le (restAt_le_size h s) with hn | hlt
          · rw [hn, stateAt_end]
            simp [core, exited, moveTo]
          · rw [stateAt_of_lt hr s limit hlt] at hs ⊢
            rw [instructionPointer_moveTo hlt] at hs
            rw [Array.getElem?_eq_getElem hlt, if_neg (Nat.ne_of_lt hlt)]
            by_cases hl : e.restAt s = e.position + limit
            · rw [if_pos hl] at hs ⊢
              simp only [CpuState.isRunning, Bool.true_eq_false, false_or] at hs
              simp [core, exited, moveTo, hs]
            · rw [if_neg hl]
              cases ha : s.isArmedAt e.program[e.restAt s] <;> simp [core, exited, moveTo, ha]

end Scripted

end RunControl
