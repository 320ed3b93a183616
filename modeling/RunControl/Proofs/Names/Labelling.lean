import Mathlib.Order.Bounds.Basic
import RunControl.Labels
import RunControl.Proofs.BreakpointSet
import RunControl.Proofs.Names.AddressSyntax

namespace RunControl

namespace Table

variable {κ ν : Type} [Ord κ] [Std.LawfulEqOrd κ] [Std.TransOrd κ] [DecidableEq κ]

theorem get?_insertAll_entries (m t : Table κ ν) (k : κ) :
    (m.insertAll t.entries).get? k = (t.get? k).or (m.get? k) := by
  have ht := get?_insertAll empty t.entries k
  have hself : (empty : Table κ ν).insertAll t.entries = t := ofList_entries t
  rw [hself, get?_empty, Option.or_none] at ht
  rw [get?_insertAll, ← ht]

end Table

namespace Labels

theorem label?_merge (given : List (Address × String)) (symbols : SymbolTable) (a : Address) :
    (merge given symbols).label? a = (symbols.get? a).or (given.reverse.lookup a) := by
  have hgiven : (Table.ofList given).get? a = given.reverse.lookup a := by
    rw [Table.ofList, Table.get?_insertAll, Table.get?_empty, Option.or_none]
  rw [label?, merge, Table.get?_insertAll_entries, hgiven]

theorem label?_eq_some_iff {l : Labels} {a : Address} {name : String} :
    l.label? a = some name ↔ (a, name) ∈ l.names.entries :=
  Table.get?_eq_some_iff

theorem ascending (l : Labels) : l.names.entries.Pairwise fun d e => d.1 < e.1 :=
  l.names.ascending.imp compareOfLessAndEq_eq_lt.mp

theorem isLeast_of_find? {l : Labels} {name : String} {e : Address × String}
    (h : l.names.entries.find? (fun e => e.2 == name) = some e) :
    IsLeast {x | l.label? x = some name} e.1 := by
  obtain ⟨hname, before, after, hsplit, hbefore⟩ := List.find?_eq_some_iff_append.mp h
  obtain rfl := beq_iff_eq.mp hname
  have hasc := l.ascending
  rw [hsplit] at hasc
  obtain ⟨-, hafter, -⟩ := List.pairwise_append.mp hasc
  constructor
  · exact label?_eq_some_iff.mpr (hsplit ▸ List.mem_append_right before List.mem_cons_self)
  · intro x hx
    have hmem := label?_eq_some_iff.mp hx
    rw [hsplit, List.mem_append, List.mem_cons] at hmem
    rcases hmem with hmem | heq | hmem
    · exact absurd (hbefore _ hmem) (by simp)
    · exact UInt32.le_of_eq (congrArg Prod.fst heq).symm
    · exact UInt32.le_of_lt ((List.pairwise_cons.mp hafter).1 _ hmem)

theorem resolve?_eq_some_iff {l : Labels} {name : String} {a : Address} :
    l.resolve? name = some a ↔
      IsLeast {x | l.label? x = some name} a ∨
        (∀ x, l.label? x ≠ some name) ∧ Address.readBare? name = some a := by
  rw [resolve?]
  cases hf : l.names.entries.find? fun e => e.2 == name with
  | none =>
      have hnone : ∀ x, l.label? x ≠ some name := by
        intro x hx
        exact List.find?_eq_none.mp hf _ (label?_eq_some_iff.mp hx) (beq_self_eq_true name)
      constructor
      · exact fun h => .inr ⟨hnone, h⟩
      · rintro (hl | ⟨-, h⟩)
        · exact absurd hl.1 (hnone a)
        · exact h
  | some e =>
      have hleast := isLeast_of_find? hf
      constructor
      · rintro ⟨⟩
        exact .inl hleast
      · rintro (hl | ⟨hnone, -⟩)
        · exact congrArg some (UInt32.le_antisymm (hleast.2 hl.1) (hl.2 hleast.1))
        · exact absurd hleast.1 (hnone e.1)

theorem exists_isLeast {l : Labels} {name : String} {x : Address} (h : l.label? x = some name) :
    ∃ a, IsLeast {x | l.label? x = some name} a := by
  have hfound : (l.names.entries.find? fun e => e.2 == name).isSome = true :=
    List.find?_isSome.mpr ⟨(x, name), label?_eq_some_iff.mp h, beq_self_eq_true name⟩
  obtain ⟨e, he⟩ := Option.isSome_iff_exists.mp hfound
  exact ⟨e.1, isLeast_of_find? he⟩

theorem mem_up_to {l : Labels} {a b : Address} {name : String} :
    (b, name) ∈ (l.names.entries.filter fun e => e.1 ≤ a) ↔ b ≤ a ∧ l.label? b = some name := by
  rw [List.mem_filter, decide_eq_true_eq, label?_eq_some_iff, and_comm]

theorem nearest?_eq_none_iff {l : Labels} {a : Address} :
    l.nearest? a = none ↔ ∀ x ≤ a, l.label? x = none := by
  rw [nearest?, List.getLast?_eq_none_iff, List.eq_nil_iff_forall_not_mem]
  constructor
  · intro h x hx
    refine Option.eq_none_iff_forall_ne_some.mpr fun name hname => h (x, name) ?_
    exact mem_up_to.mpr ⟨hx, hname⟩
  · rintro h ⟨x, name⟩ hmem
    obtain ⟨hx, hname⟩ := mem_up_to.mp hmem
    rw [h x hx] at hname
    cases hname

theorem isGreatest_of_nearest? {l : Labels} {a b : Address} {name : String}
    (h : l.nearest? a = some (b, name)) :
    IsGreatest {x | x ≤ a ∧ l.label? x ≠ none} b ∧ l.label? b = some name := by
  obtain ⟨before, hsplit⟩ := List.getLast?_eq_some_iff.mp h
  have hb : b ≤ a ∧ l.label? b = some name := by
    rw [← mem_up_to, hsplit]
    exact List.mem_append_right before List.mem_cons_self
  have hasc := l.ascending.filter fun e => e.1 ≤ a
  rw [hsplit] at hasc
  obtain ⟨-, -, hlast⟩ := List.pairwise_append.mp hasc
  refine ⟨⟨⟨hb.1, by simp [hb.2]⟩, ?_⟩, hb.2⟩
  rintro x ⟨hx, hlabel⟩
  obtain ⟨other, hother⟩ := Option.ne_none_iff_exists'.mp hlabel
  have hmem := mem_up_to.mpr ⟨hx, hother⟩
  rw [hsplit, List.mem_append, List.mem_singleton] at hmem
  rcases hmem with hmem | heq
  · exact UInt32.le_of_lt (hlast _ hmem (b, name) (List.mem_singleton_self _))
  · exact UInt32.le_of_eq (congrArg Prod.fst heq)

theorem describe_of_nearest? {l : Labels} {a b : Address} {name : String}
    (h : l.nearest? a = some (b, name)) :
    l.describe a =
      if b = a then name else name ++ "+0x" ++ String.ofList (Nat.toDigits 16 (a.toNat - b.toNat)) := by
  have hle : b ≤ a := (isGreatest_of_nearest? h).1.1.1
  have hmark : "+0x" = "+" ++ "0x" := rfl
  rw [describe, h, hmark, ← UInt32.toNat_sub_of_le a b hle]
  simp only [Address.offset, Address.hexDigits, String.append_assoc]

theorem describe_of_unlabelled {l : Labels} {a : Address} (h : ∀ x ≤ a, l.label? x = none) :
    l.describe a = a.bare := by
  rw [describe, nearest?_eq_none_iff.mpr h]

theorem describe_of_label {l : Labels} {a : Address} {name : String} (h : l.label? a = some name) :
    l.describe a = name := by
  cases hn : l.nearest? a with
  | none =>
      have hnone := nearest?_eq_none_iff.mp hn a UInt32.le_rfl
      rw [h] at hnone
      cases hnone
  | some e =>
      obtain ⟨hgreatest, hname⟩ := isGreatest_of_nearest? hn
      have hself : e.1 = a := UInt32.le_antisymm hgreatest.1.1 (hgreatest.2 ⟨UInt32.le_rfl, by simp [h]⟩)
      rw [hself, h] at hname
      rw [describe_of_nearest? hn, if_pos hself]
      exact (Option.some.inj hname).symm

theorem merged_names (given : List (Address × String)) (symbols : SymbolTable) :
    let l := merge given symbols
    (∀ a, l.label? a = (symbols.get? a).or (given.reverse.lookup a)) ∧
      (∀ name a, l.resolve? name = some a ↔
        IsLeast {x | l.label? x = some name} a ∨
          (∀ x, l.label? x ≠ some name) ∧ name.toList ≠ [] ∧ Numeral.Denotes 16 name.toList a.toNat) ∧
      (∀ a,
        (∃ b name, IsGreatest {x | x ≤ a ∧ l.label? x ≠ none} b ∧ l.label? b = some name ∧
          (a - b).toNat = a.toNat - b.toNat ∧
          l.describe a = if b = a then name
            else name ++ "+0x" ++ String.ofList (Nat.toDigits 16 (a.toNat - b.toNat))) ∨
          (∀ x ≤ a, l.label? x = none) ∧
            l.describe a = String.ofList ((Nat.toDigits 16 a.toNat).leftpad 8 '0') ∧
            (l.describe a).toList.length = 8) ∧
      (∀ a, (∀ x ≤ a, l.label? x = none) → (∀ x, l.label? x ≠ some a.bare) →
        l.resolve? (l.describe a) = some a) ∧
      ∀ a, l.label? a ≠ none → ∃ x ≤ a, l.resolve? (l.describe a) = some x := by
  intro l
  refine ⟨label?_merge given symbols, fun name a => ?_, fun a => ?_, fun a hnear hlike => ?_,
    fun a hlabel => ?_⟩
  · rw [resolve?_eq_some_iff, Address.readBare?_eq_some_iff]
  · cases hn : l.nearest? a with
    | none =>
        have hnone := nearest?_eq_none_iff.mp hn
        have hd := describe_of_unlabelled hnone
        exact .inr ⟨hnone, hd, by rw [hd, Address.length_bare]⟩
    | some e =>
        obtain ⟨hgreatest, hname⟩ := isGreatest_of_nearest? hn
        exact .inl ⟨e.1, e.2, hgreatest, hname, UInt32.toNat_sub_of_le a e.1 hgreatest.1.1,
          describe_of_nearest? hn⟩
  · rw [describe_of_unlabelled hnear, resolve?_eq_some_iff]
    exact .inr ⟨hlike, a.readBare?_bare⟩
  · obtain ⟨name, hname⟩ := Option.ne_none_iff_exists'.mp hlabel
    obtain ⟨x, hx⟩ := exists_isLeast hname
    refine ⟨x, hx.2 hname, ?_⟩
    rw [describe_of_label hname, resolve?_eq_some_iff]
    exact .inl hx

theorem merged_names_shadowed :
    let l := merge [(0x20, "loop"), (0x10, "old"), (0x10, "loop"), (0x30, "0000000e")] (.ofList [(0x30, "puts")])
    l.label? 0x10 = some "loop" ∧ l.label? 0x30 = some "puts" ∧ l.resolve? (l.describe 0x0f) = some 0x0f ∧
      ∃ x ≤ 0x20, l.resolve? (l.describe 0x20) = some x := by
  intro l
  obtain ⟨hlabel, -, -, hback, hearlier⟩ := merged_names
    [(0x20, "loop"), (0x10, "old"), (0x10, "loop"), (0x30, "0000000e")] (.ofList [(0x30, "puts")])
  refine ⟨(hlabel 0x10).trans (by decide), (hlabel 0x30).trans (by decide), ?_, hearlier 0x20 (by decide)⟩
  refine hback 0x0f (nearest?_eq_none_iff.mp (by decide)) fun x hx => ?_
  rw [label?_eq_some_iff] at hx
  have hentries : ∀ e ∈ l.names.entries, e.2 ≠ Address.bare 0x0f := by decide
  exact hentries _ hx rfl

end Labels

end RunControl
