import RunControl.Store

namespace RunControl

namespace Table

variable {κ ν : Type} [Ord κ]

@[simp] theorem contains_empty (k : κ) : (empty : Table κ ν).contains k = false := rfl

variable [Std.LawfulEqOrd κ]

theorem nodup_keys [Std.OrientedOrd κ] (m : Table κ ν) : m.keys.Nodup := by
  refine List.pairwise_map.mpr (m.ascending.imp ?_)
  intro a b hab heq
  rw [heq] at hab
  simp at hab

variable [Std.TransOrd κ]

theorem ext_contains {s t : KeySet κ} (h : ∀ k, s.contains k = t.contains k) : s = t := by
  apply ext_get?
  intro k
  have hk := h k
  simp only [contains] at hk
  cases hs : s.get? k <;> cases ht : t.get? k <;> simp_all

variable [DecidableEq κ]

theorem contains_insert (m : Table κ ν) (k a : κ) (v : ν) :
    (m.insert k v).contains a = (decide (a = k) || m.contains a) := by
  by_cases h : a = k <;> simp [contains, get?_insert, h]

theorem contains_erase (m : Table κ ν) (k a : κ) :
    (m.erase k).contains a = (!decide (a = k) && m.contains a) := by
  by_cases h : a = k <;> simp [contains, get?_erase, h]

theorem get?_insertAll (m : Table κ ν) (pairs : List (κ × ν)) (k : κ) :
    (m.insertAll pairs).get? k = (pairs.reverse.lookup k).or (m.get? k) := by
  induction pairs generalizing m with
  | nil => rfl
  | cons e rest ih =>
      obtain ⟨a, v⟩ := e
      have hrest := ih (m.insert a v)
      simp only [insertAll, List.foldl_cons] at hrest ⊢
      rw [hrest, get?_insert, List.reverse_cons, List.lookup_append, Option.or_assoc, List.lookup_cons]
      by_cases h : k = a
      · simp [h]
      · simp [h, beq_false_of_ne h]

theorem get?_insertAll_of_notMem (m : Table κ ν) {pairs : List (κ × ν)} {k : κ}
    (h : k ∉ pairs.map Prod.fst) : (m.insertAll pairs).get? k = m.get? k := by
  have hnone : pairs.reverse.lookup k = none := by
    refine List.lookup_eq_none_iff.mpr fun e he => bne_iff_ne.mpr ?_
    rintro rfl
    exact h (List.mem_map_of_mem (List.mem_reverse.mp he))
  rw [get?_insertAll, hnone, Option.none_or]

theorem get?_insertAll_of_mem (m : Table κ ν) {pairs : List (κ × ν)} {k : κ} {v : ν}
    (hd : (pairs.map Prod.fst).Nodup) (h : (k, v) ∈ pairs) :
    (m.insertAll pairs).get? k = some v := by
  induction pairs generalizing m with
  | nil => simp at h
  | cons e rest ih =>
      simp only [List.map_cons, List.nodup_cons] at hd
      rcases List.mem_cons.mp h with rfl | h
      · have hl := get?_insertAll_of_notMem (m.insert k v) hd.1
        simp only [insertAll, List.foldl_cons] at hl ⊢
        rw [hl, get?_insert, if_pos rfl]
      · exact ih (m.insert e.1 e.2) hd.2 h

theorem ofList_entries (m : Table κ ν) : ofList m.entries = m := by
  apply ext_get?
  intro k
  cases h : m.get? k with
  | none =>
      have hk : k ∉ m.entries.map Prod.fst := by
        intro hm
        obtain ⟨⟨a, v⟩, he, rfl⟩ := List.mem_map.mp hm
        exact get?_eq_none_iff.mp h v he
      exact (get?_insertAll_of_notMem empty hk).trans rfl
  | some v => exact get?_insertAll_of_mem empty m.nodup_keys (get?_eq_some_iff.mp h)

end Table

namespace BreakpointSet

theorem at?_put (s : BreakpointSet) (b : Breakpoint) (a : Address) :
    (s.put b).at? a = if a = b.address then some b else s.at? a := by
  by_cases h : a = b.address
  · simp [at?, put, Table.get?_insert, h]
  · simp [at?, put, Table.get?_insert, h]

theorem at?_foldl_put (s : BreakpointSet) (bs : List Breakpoint) (a : Address) :
    (bs.foldl put s).at? a = (bs.reverse.find? (·.address == a)).or (s.at? a) := by
  induction bs generalizing s with
  | nil => rfl
  | cons b bs ih =>
      rw [List.foldl_cons, ih, at?_put, List.reverse_cons, List.find?_append, Option.or_assoc]
      by_cases h : a = b.address
      · simp [h]
      · simp [h, Ne.symm h]

theorem at?_ofList (bs : List Breakpoint) (a : Address) :
    (ofList bs).at? a = bs.reverse.find? (·.address == a) :=
  (at?_foldl_put .empty bs a).trans Option.or_none

theorem at?_erase (s : BreakpointSet) (k a : Address) :
    at? (s.erase k) a = if a = k then none else s.at? a := by
  by_cases h : a = k <;> simp [at?, Table.get?_erase, h]

theorem contains_eq_isSome_at? (s : BreakpointSet) (a : Address) :
    s.contains a = (s.at? a).isSome := by
  simp [Table.contains, at?]

theorem address_of_at? {s : BreakpointSet} {a : Address} {b : Breakpoint} (h : s.at? a = some b) :
    b.address = a := by
  simp only [at?, Option.map_eq_some_iff] at h
  obtain ⟨f, -, rfl⟩ := h
  rfl

theorem mem_toList_iff {s : BreakpointSet} {b : Breakpoint} :
    b ∈ s.toList ↔ s.at? b.address = some b := by
  simp only [toList, List.mem_map, at?, Option.map_eq_some_iff, Table.get?_eq_some_iff]
  constructor
  · rintro ⟨⟨a, f⟩, h, rfl⟩
    exact ⟨f, h, rfl⟩
  · rintro ⟨f, h, hb⟩
    exact ⟨(b.address, f), h, hb⟩

theorem mem_enabled_iff {s : BreakpointSet} {a : Address} :
    a ∈ s.enabled ↔ s.isArmedAt a = true := by
  simp only [enabled, List.mem_map, List.mem_filter, mem_toList_iff, isArmedAt,
    Option.any_eq_true_iff_get]
  constructor
  · rintro ⟨b, ⟨hb, he⟩, rfl⟩
    exact ⟨by simp [hb], by simpa [hb] using he⟩
  · rintro ⟨hs, he⟩
    obtain ⟨b, hb⟩ := Option.isSome_iff_exists.mp hs
    have ha := address_of_at? hb
    subst ha
    exact ⟨b, ⟨hb, by simpa [hb] using he⟩, rfl⟩

theorem toList_ascending (s : BreakpointSet) :
    s.toList.Pairwise (fun a b => a.address < b.address) := by
  refine List.pairwise_map.mpr (s.ascending.imp ?_)
  intro a b h
  exact compareOfLessAndEq_eq_lt.mp h

theorem ofList_toList (s : BreakpointSet) : ofList s.toList = s := by
  have h : ofList s.toList = Table.ofList s.entries := by
    simp only [ofList, toList, List.foldl_map, Table.ofList, Table.insertAll]
    rfl
  rw [h, Table.ofList_entries]

end BreakpointSet

end RunControl
