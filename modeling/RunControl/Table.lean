namespace RunControl

structure Table (κ ν : Type) [Ord κ] where
  entries : List (κ × ν)
  ascending : entries.Pairwise (fun a b => compare a.1 b.1 = .lt)
  deriving DecidableEq

abbrev KeySet (κ : Type) [Ord κ] := Table κ Unit

namespace Table

variable {κ ν : Type} [Ord κ]

instance [Repr κ] [Repr ν] : Repr (Table κ ν) where
  reprPrec m := reprPrec m.entries

def empty : Table κ ν := ⟨[], .nil⟩

instance : Inhabited (Table κ ν) := ⟨empty⟩

def get? (m : Table κ ν) (k : κ) : Option ν :=
  (m.entries.find? (fun e => compare k e.1 == .eq)).map Prod.snd

def contains (m : Table κ ν) (k : κ) : Bool :=
  (m.get? k).isSome

def keys (m : Table κ ν) : List κ :=
  m.entries.map Prod.fst

def size (m : Table κ ν) : Nat :=
  m.entries.length

def isEmpty (m : Table κ ν) : Bool :=
  m.entries.isEmpty

def erase (m : Table κ ν) (k : κ) : Table κ ν where
  entries := m.entries.filter (fun e => compare k e.1 != .eq)
  ascending := m.ascending.filter _

def insert [Std.TransOrd κ] (m : Table κ ν) (k : κ) (v : ν) : Table κ ν where
  entries := m.entries.filter (fun e => compare e.1 k == .lt) ++
    (k, v) :: m.entries.filter (fun e => compare k e.1 == .lt)
  ascending := by
    rw [List.pairwise_append]
    refine ⟨m.ascending.filter _, ?_, ?_⟩
    · refine List.Pairwise.cons ?_ (m.ascending.filter _)
      intro e he
      simpa using (List.mem_filter.1 he).2
    · intro a ha b hb
      have hak : compare a.1 k = .lt := by simpa using (List.mem_filter.1 ha).2
      cases List.mem_cons.1 hb with
      | inl h => subst h; exact hak
      | inr h =>
          have hkb : compare k b.1 = .lt := by simpa using (List.mem_filter.1 h).2
          exact Std.TransCmp.lt_trans hak hkb

def insertAll [Std.TransOrd κ] (m : Table κ ν) (pairs : List (κ × ν)) : Table κ ν :=
  pairs.foldl (fun t e => t.insert e.1 e.2) m

def ofList [Std.TransOrd κ] (pairs : List (κ × ν)) : Table κ ν :=
  insertAll empty pairs

@[simp] theorem get?_empty (k : κ) : (empty : Table κ ν).get? k = none := rfl

section Lemmas

variable [Std.LawfulEqOrd κ]

theorem get?_eq_some_iff [Std.OrientedOrd κ] {m : Table κ ν} {k : κ} {v : ν} :
    m.get? k = some v ↔ (k, v) ∈ m.entries := by
  obtain ⟨l, hl⟩ := m
  simp only [get?]
  induction l with
  | nil => simp
  | cons e r ih =>
      obtain ⟨a, w⟩ := e
      have hr := List.pairwise_cons.1 hl
      by_cases h : compare k a = .eq
      · have hka : k = a := Std.LawfulEqCmp.eq_of_compare h
        subst hka
        have hn : (k, v) ∉ r := fun hm => by
          have := hr.1 _ hm
          simp at this
        simp [hn, eq_comm]
      · have hne : k ≠ a := fun heq => h (by simp [heq])
        simp [h, hne, ih hr.2]

theorem get?_eq_none_iff [Std.OrientedOrd κ] {m : Table κ ν} {k : κ} :
    m.get? k = none ↔ ∀ v, (k, v) ∉ m.entries := by
  constructor
  · intro h v hv
    rw [get?_eq_some_iff.2 hv] at h
    cases h
  · intro h
    cases hk : m.get? k with
    | none => rfl
    | some v => exact absurd (get?_eq_some_iff.1 hk) (h v)

@[ext] theorem ext_get? [Std.TransOrd κ] {m n : Table κ ν} (h : ∀ k, m.get? k = n.get? k) : m = n := by
  obtain ⟨l, hl⟩ := m
  obtain ⟨r, hr⟩ := n
  have hmem : ∀ e, e ∈ l ↔ e ∈ r := fun e => by
    have h1 := get?_eq_some_iff (m := ⟨l, hl⟩) (k := e.1) (v := e.2)
    have h2 := get?_eq_some_iff (m := ⟨r, hr⟩) (k := e.1) (v := e.2)
    rw [h e.1] at h1
    exact h1.symm.trans h2
  have hirr : ∀ a b : κ × ν, compare a.1 b.1 = .lt → a ≠ b := fun a b hab heq => by
    subst heq
    simp at hab
  have hperm : l.Perm r :=
    (List.perm_ext_iff_of_nodup (hl.imp (hirr _ _)) (hr.imp (hirr _ _))).2 hmem
  have : l = r := hperm.eq_of_pairwise
    (fun a b _ _ hab hba => by
      have := Std.TransCmp.lt_trans hab hba
      simp at this) hl hr
  subst this
  rfl

theorem get?_insert [Std.TransOrd κ] [DecidableEq κ] (m : Table κ ν) (k a : κ) (v : ν) :
    (m.insert k v).get? a = if a = k then some v else m.get? a := by
  cases h : (m.insert k v).get? a with
  | none =>
      rw [get?_eq_none_iff] at h
      have hk : a ≠ k := fun heq => h v (by simp [insert, heq])
      rw [if_neg hk]
      symm
      rw [get?_eq_none_iff]
      intro w hw
      apply h w
      simp only [insert, List.mem_append, List.mem_cons, List.mem_filter, beq_iff_eq]
      cases hc : compare a k with
      | lt => exact Or.inl ⟨hw, rfl⟩
      | eq => exact absurd (Std.LawfulEqCmp.eq_of_compare hc) hk
      | gt => exact Or.inr (Or.inr ⟨hw, Std.OrientedCmp.lt_of_gt hc⟩)
  | some w =>
      rw [get?_eq_some_iff] at h
      simp only [insert, List.mem_append, List.mem_cons, List.mem_filter, beq_iff_eq,
        Prod.mk.injEq] at h
      rcases h with ⟨hm, hc⟩ | ⟨rfl, rfl⟩ | ⟨hm, hc⟩
      · have hk : a ≠ k := fun heq => by simp [heq] at hc
        rw [if_neg hk, get?_eq_some_iff.2 hm]
      · simp
      · have hk : a ≠ k := fun heq => by simp [heq] at hc
        rw [if_neg hk, get?_eq_some_iff.2 hm]

theorem get?_erase [Std.OrientedOrd κ] [DecidableEq κ] (m : Table κ ν) (k a : κ) :
    (m.erase k).get? a = if a = k then none else m.get? a := by
  cases h : (m.erase k).get? a with
  | none =>
      rw [get?_eq_none_iff] at h
      by_cases hk : a = k
      · simp [hk]
      · rw [if_neg hk]
        symm
        rw [get?_eq_none_iff]
        intro w hw
        apply h w
        have hc : compare k a ≠ .eq := fun hc => hk (Std.LawfulEqCmp.eq_of_compare hc).symm
        simp [erase, hw, hc]
  | some w =>
      rw [get?_eq_some_iff] at h
      simp only [erase, List.mem_filter, bne_iff_ne] at h
      have hk : a ≠ k := fun heq => h.2 (by simp [heq])
      rw [if_neg hk, get?_eq_some_iff.2 h.1]

end Lemmas

end Table

end RunControl
