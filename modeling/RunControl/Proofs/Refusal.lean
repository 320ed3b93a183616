import RunControl.Proofs.Bracketing

namespace RunControl

class SteadyStorage (σ : Type) [Storage σ] : Prop where
  get?_of_refused : ∀ (s : σ) (key value : String) (fault : StorageFault),
    (Storage.set s key value).1 = .error fault →
      ∀ k, Storage.get? (Storage.set s key value).2 k = Storage.get? s k

instance : SteadyStorage MemoryStorage where
  get?_of_refused _ _ _ _ h := by cases h

instance : SteadyStorage ReadOnlyStorage where
  get?_of_refused _ _ _ _ _ _ := rfl

instance : SteadyStorage FlakyStorage where
  get?_of_refused s key value fault h k := by
    simp only [Storage.set] at h ⊢
    split at h
    · rename_i hn
      rw [if_pos hn]
      rfl
    · cases h

def DebugResponse.refuses : DebugResponse → Bool
  | .error _ => true
  | .resolved none => true
  | _ => false

namespace Session

variable {ε σ : Type}

def withStorage (s : Session ε σ) (storage : σ) : Session ε σ :=
  { s with scheduler := { s.scheduler with store := { s.scheduler.store with storage } } }

def wanted? (s : Session ε σ) : DebugRequest → Option BreakpointSet
  | .runTo a =>
      if s.scheduler.store.set.contains a then none
      else some (s.scheduler.store.set.put (.single a))
  | .addBreakpoint a oneShot => some (s.scheduler.store.set.put { address := a, disabled := false, oneShot })
  | .addBreakByName name =>
      (s.labels.resolve? name).map fun a => s.scheduler.store.set.put (.standing a)
  | .removeBreakpoint a =>
      if s.scheduler.store.set.contains a then some (s.scheduler.store.set.erase a) else none
  | .toggleBreakpoint a =>
      (s.scheduler.store.set.at? a).map fun b =>
        s.scheduler.store.set.put { b with disabled := !b.disabled }
  | _ => none

variable [Storage σ]

def WriteFails (s : Session ε σ) (r : DebugRequest) : Prop :=
  ∃ set fault, s.wanted? r = some set ∧
    (Storage.set s.scheduler.store.storage s.scheduler.store.key set.text).1 = .error fault

def TogglesNothing (s : Session ε σ) : DebugRequest → Prop
  | .toggleBreakpoint a => s.scheduler.store.set.at? a = none
  | _ => False

inductive Refused (s : Session ε σ) : DebugRequest → DebugResponse × Session ε σ → Prop
  | unsaved {r : DebugRequest} {set : BreakpointSet} {fault : StorageFault} {storage : σ}
      (h : s.wanted? r = some set)
      (hw : Storage.set s.scheduler.store.storage s.scheduler.store.key set.text =
        (.error fault, storage)) :
      Refused s r (.error (Error.storage fault).message, s.withStorage storage)
  | missing {a : Address} (h : s.scheduler.store.set.at? a = none) :
      Refused s (.toggleBreakpoint a) (.error (Error.noBreakpoint a).message, s)
  | unnamed {name : String} (h : s.labels.resolve? name = none) :
      Refused s (.addBreakByName name) (.resolved none, s)

structure Granted (s : Session ε σ) (r : DebugRequest) (response : DebugResponse) : Prop where
  response : response.refuses = false
  stored : ¬ s.WriteFails r
  present : ¬ s.TogglesNothing r

theorem not_writeFails_of_wanted? {s : Session ε σ} {r : DebugRequest} (h : s.wanted? r = none) :
    ¬ s.WriteFails r := by
  rintro ⟨set, fault, hw, -⟩
  rw [h] at hw
  cases hw

theorem refused_or_granted_of_wanted? {s : Session ε σ} {r : DebugRequest} {set : BreakpointSet}
    (h : s.wanted? r = some set) (hp : ¬ s.TogglesNothing r) (response : DebugResponse)
    (hr : response.refuses = false) (g : Session ε σ → Session ε σ)
    {answer : DebugResponse × Session ε σ}
    (heq : answer = match s.edit (·.commit set) with
      | (.ok (), t) => (response, g t)
      | (.error e, t) => (.error e.message, t)) :
    Refused s r answer ∨ Granted s r answer.1 := by
  simp only [edit, Store.commit_eq] at heq
  rcases hw : Storage.set s.scheduler.store.storage s.scheduler.store.key set.text with
    ⟨fault | u, storage⟩
  · rw [hw] at heq
    subst heq
    exact .inl (.unsaved h hw)
  · rw [hw] at heq
    subst heq
    refine .inr ⟨hr, ?_, hp⟩
    rintro ⟨set', fault, h', hw'⟩
    obtain rfl := Option.some.inj (h.symm.trans h')
    rw [hw] at hw'
    cases hw'

variable [Engine ε]

theorem refused_or_granted (s : Session ε σ) (r : DebugRequest) :
    Refused s r (s.handle r) ∨ Granted s r (s.handle r).1 := by
  cases r with
  | start => exact .inr ⟨rfl, not_writeFails_of_wanted? rfl, id⟩
  | stop => exact .inr ⟨rfl, not_writeFails_of_wanted? rfl, id⟩
  | step => exact .inr ⟨rfl, not_writeFails_of_wanted? rfl, id⟩
  | listBreakpoints => exact .inr ⟨rfl, not_writeFails_of_wanted? rfl, id⟩
  | getState => exact .inr ⟨rfl, not_writeFails_of_wanted? rfl, id⟩
  | runTo a =>
      cases hc : s.scheduler.store.set.contains a with
      | true =>
          have hr : (s.handle (.runTo a)).1 = .ok := by
            simp only [handle, runTo, hc, if_true]
            rfl
          exact .inr ⟨by rw [hr]; rfl, not_writeFails_of_wanted? (if_pos hc), id⟩
      | false =>
          have hw : s.wanted? (.runTo a) = some (s.scheduler.store.set.put (.single a)) := by
            simp only [wanted?, hc]
            rfl
          refine refused_or_granted_of_wanted? hw id .ok rfl start ?_
          simp only [handle, runTo, hc, add, edit, Store.add_eq]
          rcases s.scheduler.store.commit _ with ⟨e | u, t⟩ <;> rfl
  | addBreakpoint a oneShot =>
      refine refused_or_granted_of_wanted? rfl id .ok rfl id ?_
      simp only [handle, add, edit, Store.add_eq]
      rcases s.scheduler.store.commit _ with ⟨e | u, t⟩ <;> rfl
  | addBreakByName name =>
      cases hn : s.labels.resolve? name with
      | none =>
          have hr : s.handle (.addBreakByName name) = (.resolved none, s) := by
            simp only [handle, addByName, hn]
            rfl
          rw [hr]
          exact .inl (.unnamed hn)
      | some a =>
          have hw : s.wanted? (.addBreakByName name) = some (s.scheduler.store.set.put (.standing a)) := by
            simp only [wanted?, hn]
            rfl
          refine refused_or_granted_of_wanted? hw id (.resolved (some a)) rfl id ?_
          simp only [handle, addByName, hn, add, edit, Store.add_eq]
          rcases s.scheduler.store.commit _ with ⟨e | u, t⟩ <;> rfl
  | removeBreakpoint a =>
      cases hc : s.scheduler.store.set.contains a with
      | false =>
          have hr : (s.handle (.removeBreakpoint a)).1 = .ok := by
            simp only [handle, remove, edit, Store.remove_eq, hc]
            rfl
          exact .inr ⟨by rw [hr]; rfl, not_writeFails_of_wanted? (by simp only [wanted?, hc]; rfl), id⟩
      | true =>
          have hw : s.wanted? (.removeBreakpoint a) = some (s.scheduler.store.set.erase a) := if_pos hc
          refine refused_or_granted_of_wanted? hw id .ok rfl id ?_
          simp only [handle, remove, edit, Store.remove_eq, hc]
          rcases s.scheduler.store.commit _ with ⟨e | u, t⟩ <;> rfl
  | toggleBreakpoint a =>
      cases hb : s.scheduler.store.set.at? a with
      | none =>
          have hr : s.handle (.toggleBreakpoint a) = (.error (Error.noBreakpoint a).message, s) := by
            simp only [handle, toggle, edit, Store.toggle_eq, hb]
            rfl
          rw [hr]
          exact .inl (.missing hb)
      | some b =>
          have hw : s.wanted? (.toggleBreakpoint a) =
              some (s.scheduler.store.set.put { b with disabled := !b.disabled }) := by
            simp only [wanted?, hb]
            rfl
          have hp : ¬ s.TogglesNothing (.toggleBreakpoint a) := by
            intro hn
            have hnone : s.scheduler.store.set.at? a = none := hn
            rw [hb] at hnone
            cases hnone
          refine refused_or_granted_of_wanted? hw hp .ok rfl id ?_
          simp only [handle, toggle, edit, Store.toggle_eq, hb]
          rcases s.scheduler.store.commit _ with ⟨e | u, t⟩ <;> rfl

theorem Refused.asked_eq {s : Session ε σ} {r : DebugRequest} {answer : DebugResponse × Session ε σ}
    (h : Refused s r answer) : s.asked (.request r) = [] := by
  cases h with
  | missing h => rfl
  | unnamed h => rfl
  | @unsaved _ set fault storage h hw =>
      cases r with
      | start => cases h
      | step => cases h
      | runTo a =>
          simp only [wanted?] at h
          split at h
          · cases h
          · rename_i hc
            obtain rfl := Option.some.inj h
            simp only [asked, runToBlocks, hc, add, edit, Store.add_eq, Store.commit_eq, hw]
            rfl
      | _ => rfl

theorem handle_refused [SteadyStorage σ] (s : Session ε σ) (r : DebugRequest) :
    ((s.handle r).1.refuses = true → s.asked (.request r) = [] ∧
      ∃ storage, (s.handle r).2 = s.withStorage storage ∧
        ∀ key, Storage.get? storage key = Storage.get? s.scheduler.store.storage key) ∧
    ((∃ message, (s.handle r).1 = .error message) ↔ s.WriteFails r ∨ s.TogglesNothing r) := by
  have hcases := s.refused_or_granted r
  generalize s.handle r = answer at hcases
  rcases hcases with h | h
  · have hasked := h.asked_eq
    cases h with
    | @unsaved _ set fault storage h hw =>
        have hkeep := SteadyStorage.get?_of_refused s.scheduler.store.storage s.scheduler.store.key
          set.text fault (by rw [hw])
        rw [hw] at hkeep
        exact ⟨fun _ => ⟨hasked, storage, rfl, hkeep⟩,
          ⟨fun _ => .inl ⟨set, fault, h, by rw [hw]⟩, fun _ => ⟨_, rfl⟩⟩⟩
    | missing h =>
        exact ⟨fun _ => ⟨hasked, _, rfl, fun _ => rfl⟩, ⟨fun _ => .inr h, fun _ => ⟨_, rfl⟩⟩⟩
    | unnamed h =>
        refine ⟨fun _ => ⟨hasked, _, rfl, fun _ => rfl⟩, ⟨fun he => ?_, fun hf => ?_⟩⟩
        · obtain ⟨message, he⟩ := he
          cases he
        · exact absurd hf (not_or.mpr ⟨not_writeFails_of_wanted? (by simp only [wanted?, h]; rfl), id⟩)
  · have hno := h.response
    refine ⟨fun hr => ?_, ⟨fun he => ?_, fun hf => ?_⟩⟩
    · rw [hno] at hr
      cases hr
    · obtain ⟨message, he⟩ := he
      rw [he] at hno
      cases hno
    · exact absurd hf (not_or.mpr ⟨h.stored, h.present⟩)

theorem handle_refused_underway :
    let s := (create (Recorded.fresh (Scripted.ofProgram #[10, 20, 30, 20] [1] 0 .empty)) "p" []
      (⟨.empty, 0, [2]⟩ : FlakyStorage) .channel .standard .still).run [.add (.standing 20), .start]
    (s.scheduler.running = true ∧ (s.handle (.runTo 30)).1.refuses = true) ∧
      (s.asked (.request (.runTo 30)) = [] ∧
        ∃ storage, (s.handle (.runTo 30)).2 = s.withStorage storage ∧
          ∀ key, Storage.get? storage key = Storage.get? s.scheduler.store.storage key) ∧
      ((∃ message, (s.handle (.runTo 30)).1 = .error message) ↔
        s.WriteFails (.runTo 30) ∨ s.TogglesNothing (.runTo 30)) := by
  intro s
  have hr : s.scheduler.running = true ∧ (s.handle (.runTo 30)).1.refuses = true := by decide +kernel
  have h := s.handle_refused (.runTo 30)
  exact ⟨hr, h.1 hr.2, h.2⟩

end Session

end RunControl
