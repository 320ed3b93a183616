import RunControl.Proofs.BreakpointSet

namespace RunControl

namespace BreakpointSet

theorem at?_putBack (s : BreakpointSet) (a k : Address) {previous : Option Breakpoint}
    (h : ∀ b, previous = some b → b.address = a) :
    (s.putBack a previous).at? k = if k = a then previous else s.at? k := by
  cases previous with
  | none => exact at?_erase s a k
  | some b =>
      have hb := h b rfl
      subst hb
      exact at?_put s b k

theorem ext_at? {s t : BreakpointSet} (h : ∀ a, s.at? a = t.at? a) : s = t := by
  apply Table.ext_get?
  intro a
  have ha := h a
  simp only [at?] at ha
  cases hs : s.get? a <;> cases ht : t.get? a <;> simp_all

theorem putBack_at? {s t : BreakpointSet} {a : Address} (h : ∀ k, k ≠ a → t.at? k = s.at? k) :
    t.putBack a (s.at? a) = s := by
  apply ext_at?
  intro k
  rw [at?_putBack t a k fun b hb => address_of_at? hb]
  split
  · rename_i hk
    rw [hk]
  · rename_i hk
    exact h k hk

theorem putBack_put (s : BreakpointSet) (b : Breakpoint) :
    (s.put b).putBack b.address (s.at? b.address) = s :=
  putBack_at? fun k hk => by rw [at?_put, if_neg hk]

theorem putBack_erase (s : BreakpointSet) (a : Address) :
    putBack (s.erase a) a (s.at? a) = s :=
  putBack_at? fun k hk => by rw [at?_erase, if_neg hk]

end BreakpointSet

namespace Store

variable {σ : Type} [Storage σ]

def commit (s : Store σ) (set : BreakpointSet) : Except Error Unit × Store σ :=
  match ({ s with set } : Store σ).persist with
  | (.ok (), t) => (.ok (), t)
  | (.error e, t) => (.error e, { t with set := s.set })

theorem commit_eq (s : Store σ) (set : BreakpointSet) :
    s.commit set = match Storage.set s.storage s.key set.text with
      | (.ok (), storage) => (.ok (), { s with set, storage })
      | (.error fault, storage) => (.error (.storage fault), { s with storage }) := by
  simp only [commit, persist]
  cases h : Storage.set s.storage s.key set.text with
  | mk r storage => cases r <;> rfl

theorem persistOrRevert_eq {s : Store σ} {set : BreakpointSet} {a : Address}
    {previous : Option Breakpoint} (h : set.putBack a previous = s.set) :
    ({ s with set } : Store σ).persistOrRevert a previous = s.commit set := by
  simp only [persistOrRevert, commit, persist]
  cases Storage.set s.storage s.key set.text with
  | mk r storage =>
      cases r with
      | ok u => rfl
      | error fault =>
          show (_, ({ s with storage, set := set.putBack a previous } : Store σ)) = _
          rw [h]
          rfl

theorem add_eq (s : Store σ) (b : Breakpoint) : s.add b = s.commit (s.set.put b) :=
  persistOrRevert_eq (s.set.putBack_put b)

theorem remove_eq (s : Store σ) (a : Address) :
    s.remove a =
      if s.set.contains a then
        ((s.commit (s.set.erase a)).1.map fun _ => true, (s.commit (s.set.erase a)).2)
      else (.ok false, s) := by
  rw [BreakpointSet.contains_eq_isSome_at?]
  simp only [remove]
  cases hb : s.set.at? a with
  | none => rfl
  | some b =>
      have hp := s.set.putBack_erase a
      rw [hb] at hp
      simp only [persistOrRevert_eq hp]
      rfl

theorem toggle_eq (s : Store σ) (a : Address) :
    s.toggle a =
      match s.set.at? a with
      | none => (.error (.noBreakpoint a), s)
      | some b =>
          let b' := { b with disabled := !b.disabled }
          ((s.commit (s.set.put b')).1.map fun _ => b', (s.commit (s.set.put b')).2) := by
  simp only [toggle]
  cases hb : s.set.at? a with
  | none => rfl
  | some b =>
      obtain rfl := BreakpointSet.address_of_at? hb
      have hp := s.set.putBack_put { b with disabled := !b.disabled }
      rw [hb] at hp
      simp only [persistOrRevert_eq hp]

end Store

end RunControl
