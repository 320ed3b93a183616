import Mathlib.Order.Bounds.Basic
import RunControl.Engine.Scripted
import RunControl.Proofs.BreakpointSet

namespace RunControl

def Engine.perform {ε : Type} [Engine ε] (e : ε) : EngineCall → ε
  | .run limit => (Engine.run e limit).2
  | .register a => Engine.register e a
  | .clear a => Engine.clear e a
  | .unblock => Engine.unblock e

namespace Scripted

inductive Reachable : Scripted → Prop
  | ofProgram (program : Array Address) (blocks : List Nat) (exitCode : UInt32)
      (symbols : SymbolTable) : Reachable (ofProgram program blocks exitCode symbols)
  | ofImage {name : String} {image : ByteArray} {e : Scripted} :
      ofImage name image = .ok e → Reachable e
  | perform {e : Scripted} (call : EngineCall) : Reachable e → Reachable (Engine.perform e call)

def isFree (e : Scripted) (j : Nat) : Bool :=
  match e.program[j]? with
  | none => false
  | some a => !e.registered.contains a && !e.blocks.contains j

def halt? (e : Scripted) (j : Nat) : Option CpuState :=
  (e.program[j]?).map fun a => if e.registered.contains a then .debugBreak else .blocked

theorem walk_succ (e : Scripted) (n p : Nat) :
    e.walk (n + 1) p = if e.isFree p then e.walk n (p + 1) else (p, e.halt? p) := by
  obtain hp | ⟨a, hp⟩ := Option.eq_none_or_eq_some e.program[p]?
  · simp [walk, isFree, halt?, hp]
  · cases hr : e.registered.contains a <;> cases hb : e.blocks.contains p <;>
      simp [walk, isFree, halt?, hp, hr, hb]

theorem walk_spec (e : Scripted) (n p : Nat) :
    p ≤ (e.walk n p).1 ∧ (e.walk n p).1 ≤ p + n ∧
      (∀ j, p ≤ j → j < (e.walk n p).1 → e.isFree j = true) ∧
      ((e.walk n p).1 < p + n → e.isFree (e.walk n p).1 = false) ∧
      (e.walk n p).2 = if (e.walk n p).1 < p + n then e.halt? (e.walk n p).1 else none := by
  induction n generalizing p with
  | zero =>
      refine ⟨le_refl p, le_refl p, ?_, ?_, ?_⟩
      · intro j h1 h2
        exact absurd h2 (Nat.not_lt.mpr h1)
      · intro h
        exact absurd h (Nat.lt_irrefl p)
      · simp [walk]
  | succ n ih =>
      rw [walk_succ]
      cases hp : e.isFree p with
      | false =>
          simp only [Bool.false_eq_true, if_false]
          refine ⟨le_refl p, by omega, ?_, fun _ => hp, by simp⟩
          intro j h1 h2
          exact absurd h2 (Nat.not_lt.mpr h1)
      | true =>
          simp only [if_true]
          obtain ⟨h1, h2, h3, h4, h5⟩ := ih (p + 1)
          have hn : p + 1 + n = p + (n + 1) := by omega
          rw [hn] at h2 h4 h5
          refine ⟨by omega, h2, ?_, h4, h5⟩
          intro j hj hq
          rcases Nat.eq_or_lt_of_le hj with rfl | hlt
          · exact hp
          · exact h3 j hlt hq

theorem isFree_lt_size {e : Scripted} {j : Nat} (h : e.isFree j = true) : j < e.program.size := by
  by_contra hj
  rw [isFree, Array.getElem?_eq_none (by omega)] at h
  exact Bool.false_ne_true h

def restFrom (e : Scripted) (p : Nat) : Nat :=
  (e.walk (e.program.size - p) p).1

theorem le_restFrom (e : Scripted) (p : Nat) : p ≤ e.restFrom p :=
  (e.walk_spec _ p).1

theorem isFree_of_lt_restFrom {e : Scripted} {p j : Nat} (h1 : p ≤ j) (h2 : j < e.restFrom p) :
    e.isFree j = true :=
  (e.walk_spec _ p).2.2.1 j h1 h2

theorem restFrom_le_size {e : Scripted} {p : Nat} (h : p ≤ e.program.size) :
    e.restFrom p ≤ e.program.size := by
  have h2 := (e.walk_spec (e.program.size - p) p).2.1
  have hn : p + (e.program.size - p) = e.program.size := by omega
  rwa [hn] at h2

theorem isFree_restFrom (e : Scripted) (p : Nat) : e.isFree (e.restFrom p) = false := by
  obtain ⟨-, h2, -, h4, -⟩ := e.walk_spec (e.program.size - p) p
  by_cases h : (e.walk (e.program.size - p) p).1 < p + (e.program.size - p)
  · exact h4 h
  · by_contra hf
    have hlt := isFree_lt_size (Bool.not_eq_false _ ▸ hf)
    simp only [restFrom] at hlt
    omega

theorem restFrom_unique {e : Scripted} {p q : Nat} (h1 : p ≤ q)
    (h2 : ∀ j, p ≤ j → j < q → e.isFree j = true) (h3 : e.isFree q = false) :
    e.restFrom p = q := by
  rcases Nat.lt_trichotomy (e.restFrom p) q with h | h | h
  · have hf := h2 _ (e.le_restFrom p) h
    rw [isFree_restFrom] at hf
    exact absurd hf Bool.false_ne_true
  · exact h
  · have hf := isFree_of_lt_restFrom h1 h
    rw [h3] at hf
    exact absurd hf Bool.false_ne_true

theorem walk_fst (e : Scripted) (n p : Nat) : (e.walk n p).1 = min (p + n) (e.restFrom p) := by
  obtain ⟨h1, h2, h3, h4, -⟩ := e.walk_spec n p
  by_cases h : (e.walk n p).1 < p + n
  · rw [restFrom_unique h1 h3 (h4 h)]
    omega
  · have hq : (e.walk n p).1 = p + n := by omega
    rw [hq] at h3 ⊢
    rw [Nat.min_eq_left]
    by_contra hr
    have hf := h3 _ (e.le_restFrom p) (by omega)
    rw [isFree_restFrom] at hf
    exact Bool.false_ne_true hf

theorem walk_snd (e : Scripted) (n p : Nat) :
    (e.walk n p).2 = if e.restFrom p < p + n then e.halt? (e.restFrom p) else none := by
  have h5 := (e.walk_spec n p).2.2.2.2
  rw [walk_fst] at h5
  rw [h5]
  by_cases h : e.restFrom p < p + n
  · rw [if_pos h, Nat.min_eq_right h.le, if_pos h]
  · rw [if_neg h, if_neg (by omega)]

structure Coherent (e : Scripted) : Prop where
  count_eq : e.count = e.position
  position_le : e.position ≤ e.program.size
  lt_of_blocked : e.blocked = true → e.position < e.program.size
  block_of_blocked : e.blocked = true → e.blocks.contains e.position = true
  end_of_exit : ∀ code, e.last = some (.exit code) →
    e.position = e.program.size ∧ code = e.exitCode
  not_failed : ∀ message, e.last ≠ some (.error message)

def exited (e : Scripted) : Bool :=
  match e.last with
  | some (.exit _) => true
  | _ => false

def moveTo (e : Scripted) (q : Nat) (blocked : Bool) (last : Option CpuState) : Scripted :=
  { e with position := q, count := e.count + (q - e.position), blocked, last }

def stateAt (e : Scripted) (limit q : Nat) : CpuState :=
  if q = e.program.size then .exit e.exitCode
  else if q = e.position + limit then .running
  else (e.halt? q).getD .blocked

theorem Coherent.run_of_exited {e : Scripted} (h : e.Coherent) (hx : e.exited = true) (limit : Nat) :
    e.run limit = (.exit e.exitCode, e) := by
  obtain ⟨code, hc⟩ : ∃ code, e.last = some (.exit code) := by
    simp only [exited] at hx
    split at hx
    · exact ⟨_, by assumption⟩
    · exact absurd hx Bool.false_ne_true
  simp only [run, hc, (h.end_of_exit code hc).2]

theorem Coherent.run_of_blocked {e : Scripted} (h : e.Coherent) (hx : e.exited = false)
    (hb : e.blocked = true) (limit : Nat) :
    e.run limit = (.blocked, { e with last := some .blocked }) := by
  simp only [run]
  split
  · rename_i code hc
    simp [exited, hc] at hx
  · rename_i message hm
    exact absurd hm (h.not_failed message)
  · simp [hb, report]

theorem stateAt_of_restFrom_lt {e : Scripted} {limit : Nat}
    (hr : e.restFrom e.position < e.position + limit) (hs : e.restFrom e.position < e.program.size) :
    e.halt? (e.restFrom e.position) = some (e.stateAt limit (e.restFrom e.position)) := by
  simp only [stateAt, if_neg (Nat.ne_of_lt hs), if_neg (Nat.ne_of_lt hr)]
  simp [halt?, Array.getElem?_eq_getElem hs]

theorem Coherent.run_of_free {e : Scripted} (h : e.Coherent) (hx : e.exited = false)
    (hb : e.blocked = false) (limit : Nat) :
    let q := min (e.position + limit) (e.restFrom e.position)
    e.run limit = (e.stateAt limit q,
      e.moveTo q (e.stateAt limit q == .blocked) (some (e.stateAt limit q))) := by
  intro q
  have hp := h.position_le
  have hle := restFrom_le_size hp
  have hge := e.le_restFrom e.position
  have hw := e.walk_fst (min limit (e.program.size - e.position)) e.position
  have hm : min (e.position + min limit (e.program.size - e.position)) (e.restFrom e.position) = q := by
    omega
  rw [hm] at hw
  have hh := e.walk_snd (min limit (e.program.size - e.position)) e.position
  have hrun : e.run limit = e.runOn limit := by
    simp only [run]
    split
    · rename_i code hc
      simp [exited, hc] at hx
    · rename_i message hm
      exact absurd hm (h.not_failed message)
    · simp [hb]
  rw [hrun]
  simp only [runOn]
  rw [hw, hh]
  by_cases hr : e.restFrom e.position < e.position + min limit (e.program.size - e.position)
  · have hq : q = e.restFrom e.position := by omega
    rw [if_pos hr, stateAt_of_restFrom_lt (by omega : _ < e.position + limit) (by omega), ← hq]
    cases hs : e.stateAt limit q <;> simp [report, moveTo, hb]
  · rw [if_neg hr]
    by_cases hn : e.program.size ≤ q
    · have hq : q = e.program.size := by omega
      have hs : e.stateAt limit q = .exit e.exitCode := by simp [stateAt, hq]
      simp [hs, hn, report, moveTo, hb]
    · have hs : e.stateAt limit q = .running := by
        simp only [stateAt, if_neg (by omega : q ≠ e.program.size),
          if_pos (by omega : q = e.position + limit)]
      simp [hs, hn, report, moveTo, hb]

theorem halt?_cases (e : Scripted) (j : Nat) :
    (e.halt? j).getD .blocked = .debugBreak ∨ (e.halt? j).getD .blocked = .blocked := by
  obtain hj | ⟨a, hj⟩ := Option.eq_none_or_eq_some e.program[j]?
  · simp [halt?, hj]
  · cases hr : e.registered.contains a <;> simp [halt?, hj, hr]

theorem stateAt_eq_exit {e : Scripted} {limit q : Nat} {code : UInt32}
    (h : e.stateAt limit q = .exit code) : q = e.program.size ∧ code = e.exitCode := by
  simp only [stateAt] at h
  split at h
  · rename_i hq
    exact ⟨hq, (CpuState.exit.inj h).symm⟩
  · split at h
    · exact absurd h (by simp)
    · rcases e.halt?_cases q with hc | hc <;> simp [hc] at h

theorem stateAt_ne_error (e : Scripted) (limit q : Nat) (message : String) :
    e.stateAt limit q ≠ .error message := by
  simp only [stateAt]
  split
  · simp
  · split
    · simp
    · rcases e.halt?_cases q with hc | hc <;> simp [hc]

theorem stateAt_eq_blocked {e : Scripted} {limit q : Nat} (hq : q ≤ e.program.size)
    (hf : q ≠ e.position + limit → e.isFree q = false) (h : e.stateAt limit q = .blocked) :
    q < e.program.size ∧ e.blocks.contains q = true := by
  simp only [stateAt] at h
  split at h
  · exact absurd h (by simp)
  · split at h
    · exact absurd h (by simp)
    · rename_i hs hl
      have hlt : q < e.program.size := by omega
      have hn := hf hl
      simp only [halt?, isFree, Array.getElem?_eq_getElem hlt] at h hn
      cases hr : e.registered.contains e.program[q]
      · rw [hr] at hn
        exact ⟨hlt, by simpa using hn⟩
      · simp [hr] at h

theorem isFree_min_restFrom {e : Scripted} {p limit : Nat}
    (h : min (p + limit) (e.restFrom p) ≠ p + limit) :
    e.isFree (min (p + limit) (e.restFrom p)) = false := by
  have hq : min (p + limit) (e.restFrom p) = e.restFrom p := by omega
  rw [hq, isFree_restFrom]

theorem Coherent.moved {e : Scripted} (h : e.Coherent) {limit q : Nat} (hp : e.position ≤ q)
    (hq : q ≤ e.program.size) (hf : q ≠ e.position + limit → e.isFree q = false) :
    (e.moveTo q (e.stateAt limit q == .blocked) (some (e.stateAt limit q))).Coherent where
  count_eq := by
    have hc := h.count_eq
    show e.count + (q - e.position) = q
    omega
  position_le := hq
  lt_of_blocked hb := (stateAt_eq_blocked hq hf (by simpa [moveTo] using hb)).1
  block_of_blocked hb := (stateAt_eq_blocked hq hf (by simpa [moveTo] using hb)).2
  end_of_exit code hs := by
    have he : q = e.program.size ∧ code = e.exitCode := stateAt_eq_exit (Option.some.inj hs)
    exact he
  not_failed message hs :=
    e.stateAt_ne_error limit q message (Option.some.inj hs)

theorem Coherent.run {e : Scripted} (h : e.Coherent) (limit : Nat) : (e.run limit).2.Coherent := by
  cases hx : e.exited with
  | true =>
      rw [h.run_of_exited hx]
      exact h
  | false =>
      cases hb : e.blocked with
      | true =>
          rw [h.run_of_blocked hx hb]
          exact ⟨h.count_eq, h.position_le, h.lt_of_blocked, h.block_of_blocked,
            fun _ hc => by simp at hc, fun _ hm => by simp at hm⟩
      | false =>
          rw [h.run_of_free hx hb]
          have hge := e.le_restFrom e.position
          have hle := restFrom_le_size h.position_le
          exact h.moved (by omega) (by omega) isFree_min_restFrom

theorem Coherent.withRegistered {e : Scripted} (h : e.Coherent) (r : KeySet Address) :
    Coherent { e with registered := r } :=
  ⟨h.count_eq, h.position_le, h.lt_of_blocked, h.block_of_blocked, h.end_of_exit, h.not_failed⟩

theorem Coherent.unblock {e : Scripted} (h : e.Coherent) : e.unblock.Coherent := by
  cases hb : e.blocked with
  | false => simpa [Scripted.unblock, hb] using h
  | true =>
      simp only [Scripted.unblock, hb, if_true]
      exact ⟨h.count_eq, h.position_le, fun hn => by simp at hn, fun hn => by simp at hn,
        h.end_of_exit, h.not_failed⟩

theorem coherent_ofProgram (program : Array Address) (blocks : List Nat) (exitCode : UInt32)
    (symbols : SymbolTable) : (ofProgram program blocks exitCode symbols).Coherent := by
  constructor <;> simp [ofProgram]

theorem exists_of_ofImage {name : String} {image : ByteArray} {e : Scripted}
    (h : ofImage name image = .ok e) : ∃ trace symbols, e = ofTrace name trace symbols := by
  simp only [ofImage] at h
  split at h
  · cases h
  · split at h
    · cases h
    · rename_i trace _
      cases hs : SymbolTable.ofKeys trace.imports with
      | error err =>
          rw [hs] at h
          cases h
      | ok symbols =>
          rw [hs] at h
          cases h
          exact ⟨trace, symbols, rfl⟩

theorem coherent_ofImage {name : String} {image : ByteArray} {e : Scripted}
    (h : ofImage name image = .ok e) : e.Coherent := by
  obtain ⟨trace, symbols, rfl⟩ := exists_of_ofImage h
  have hc := coherent_ofProgram trace.program.toArray trace.blocks trace.exitCode symbols
  exact ⟨hc.count_eq, hc.position_le, hc.lt_of_blocked, hc.block_of_blocked, hc.end_of_exit,
    hc.not_failed⟩

theorem Reachable.coherent {e : Scripted} (h : e.Reachable) : e.Coherent := by
  induction h with
  | ofProgram program blocks exitCode symbols =>
      exact coherent_ofProgram program blocks exitCode symbols
  | ofImage h => exact coherent_ofImage h
  | perform call _ ih =>
      cases call with
      | run limit => exact ih.run limit
      | register a => exact ih.withRegistered _
      | clear a => exact ih.withRegistered _
      | unblock => exact ih.unblock

end Scripted

end RunControl
