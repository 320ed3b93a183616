import RunControl.Proofs.Json.Stability

namespace RunControl

theorem Table.insert_comm {κ ν : Type} [Ord κ] [Std.TransOrd κ] [Std.LawfulEqOrd κ] [DecidableEq κ]
    (t : Table κ ν) {j k : κ} (h : j ≠ k) (v w : ν) :
    (t.insert j v).insert k w = (t.insert k w).insert j v := by
  ext a
  rw [get?_insert, get?_insert, get?_insert, get?_insert]
  by_cases hk : a = k
  · rw [if_pos hk, if_pos hk, if_neg fun hj => h (hj.symm.trans hk)]
  · rw [if_neg hk, if_neg hk]

namespace Json

variable {α β : Type}

def Apart (k l : Option String) : Prop :=
  ∀ name, k = some name → l ≠ some name

theorem Apart.symm {k l : Option String} (h : Apart k l) : Apart l k :=
  fun name hl hk => h name hk hl

theorem Apart.ne {j k : String} (h : Apart (some j) (some k)) : j ≠ k :=
  fun heq => h j rfl (heq ▸ rfl)

mutual

/-- That a document is another one with neighbouring members exchanged, at any number of places. -/
inductive Node.Reordered : Node → Node → Prop where
  | same (n : Node) : n.Reordered n
  | seq {xs ys : Items} (h : xs.Reordered ys) : (Node.seq xs).Reordered (.seq ys)
  | map {xs ys : Members} (h : xs.Reordered ys) : (Node.map xs).Reordered (.map ys)

inductive Items.Reordered : Items → Items → Prop where
  | same (xs : Items) : xs.Reordered xs
  | cons {n m : Node} {xs ys : Items} (head : n.Reordered m) (tail : xs.Reordered ys) :
      (Items.cons n xs).Reordered (.cons m ys)

inductive Members.Reordered : Members → Members → Prop where
  | same (xs : Members) : xs.Reordered xs
  | cons {n m : Node} {xs ys : Members} (k : Option String) (head : n.Reordered m) (tail : xs.Reordered ys) :
      (Members.cons k n xs).Reordered (.cons k m ys)
  | swap {k l : Option String} (h : Apart k l) (n m : Node) (xs : Members) :
      (Members.cons k n (.cons l m xs)).Reordered (.cons l m (.cons k n xs))

end

theorem Items.Reordered.exists_cons {n : Node} {xs ys : Items} (h : (Items.cons n xs).Reordered ys) :
    ∃ m zs, ys = .cons m zs ∧ n.Reordered m ∧ xs.Reordered zs := by
  cases h with
  | same => exact ⟨n, xs, rfl, .same n, .same xs⟩
  | cons head tail => exact ⟨_, _, rfl, head, tail⟩

theorem Members.Reordered.cons_cases {k : Option String} {n : Node} {xs ys : Members}
    (h : (Members.cons k n xs).Reordered ys) :
    (∃ m zs, ys = .cons k m zs ∧ n.Reordered m ∧ xs.Reordered zs) ∨
      ∃ l m zs, Apart k l ∧ xs = .cons l m zs ∧ ys = .cons l m (.cons k n zs) := by
  cases h with
  | same => exact .inl ⟨n, xs, rfl, .same n, .same xs⟩
  | cons _ head tail => exact .inl ⟨_, _, rfl, head, tail⟩
  | swap h _ m zs => exact .inr ⟨_, m, zs, h, rfl, rfl⟩

mutual

theorem Node.Reordered.intact_eq {n m : Node} (h : n.Reordered m) : m.intact = n.intact := by
  match h with
  | .same _ => rfl
  | .seq h => exact h.intact_eq
  | .map h => exact h.intact_eq

theorem Items.Reordered.intact_eq {xs ys : Items} (h : xs.Reordered ys) : ys.intact = xs.intact := by
  match h with
  | .same _ => rfl
  | .cons hn hr => rw [Items.intact, Items.intact, hn.intact_eq, hr.intact_eq]

theorem Members.Reordered.intact_eq {xs ys : Members} (h : xs.Reordered ys) : ys.intact = xs.intact := by
  match h with
  | .same _ => rfl
  | .cons k hn hr => rw [Members.intact, Members.intact, hn.intact_eq, hr.intact_eq]
  | .swap _ n m xs => simp only [Members.intact, Bool.and_left_comm]

end

def Unordered (d : Decoder α) : Prop :=
  ∀ n m a, n.Reordered m → d n = .ok a → d m = .ok a

theorem unordered_of_flat {d : Decoder α} (hseq : ∀ items a, d (.seq items) ≠ .ok a)
    (hmap : ∀ members a, d (.map members) ≠ .ok a) : Unordered d := by
  intro n m a h hn
  cases h with
  | same => exact hn
  | @seq xs ys => exact absurd hn (hseq xs a)
  | @map xs ys => exact absurd hn (hmap xs a)

theorem Unordered.map {d : Decoder α} (hd : Unordered d) (f : α → β) : Unordered fun n => (d n).map f := by
  intro n m b h hn
  obtain ⟨a, ha, rfl⟩ := map_eq_ok_iff.mp hn
  exact map_eq_ok_iff.mpr ⟨a, hd n m a h ha, rfl⟩

theorem Unordered.within {d : Decoder α} (hd : Unordered d) (seg : Segment) :
    Unordered fun n => Json.within seg (d n) :=
  fun n m a h hn => within_eq_ok_iff.mpr (hd n m a h (within_eq_ok_iff.mp hn))

theorem unordered_natural (bound : Nat) (expected : String) : Unordered (.natural bound expected) :=
  unordered_of_flat (fun _ _ => nofun) fun _ _ => nofun

theorem unordered_word32 : Unordered .word32 :=
  (unordered_natural _ _).map UInt32.ofNat

theorem unordered_word64 (expected : String) : Unordered (.word64 expected) :=
  (unordered_natural _ _).map UInt64.ofNat

theorem unordered_real : Unordered .real :=
  unordered_of_flat (fun _ _ => nofun) fun _ _ => nofun

theorem unordered_boolean : Unordered .boolean :=
  unordered_of_flat (fun _ _ => nofun) fun _ _ => nofun

theorem unordered_string : Unordered .string :=
  unordered_of_flat (fun _ _ => nofun) fun _ _ => nofun

theorem unordered_unit (expected : String) : Unordered (.unit expected) :=
  unordered_of_flat (fun _ _ => nofun) fun _ _ => nofun

theorem Unordered.nullable {d : Decoder α} (hd : Unordered d) : Unordered (.nullable d) := by
  intro n m a h hn
  cases h with
  | same => exact hn
  | seq h => exact hd.map some _ _ a (.seq h) hn
  | map h => exact hd.map some _ _ a (.map h) hn

theorem itemsFrom_reordered {d : Decoder α} (hd : Unordered d) {i : Nat} {xs ys : Items}
    (h : xs.Reordered ys) {as : List α} (hxs : Decoder.itemsFrom d i xs = .ok as) :
    Decoder.itemsFrom d i ys = .ok as := by
  fun_induction Decoder.itemsFrom d i xs generalizing ys as with
  | case1 i =>
      cases h
      exact hxs
  | case2 => cases hxs
  | case3 => cases hxs
  | case4 => cases hxs
  | case5 i n r a hn as hr ih =>
      obtain ⟨m, s, rfl, head, tail⟩ := h.exists_cons
      simp only [Decoder.itemsFrom, hd.within (.index i) n m a head hn, ih tail hr]
      exact hxs

theorem Unordered.list {d : Decoder α} (hd : Unordered d) : Unordered (.list d) := by
  intro n m as h hn
  cases h with
  | same => exact hn
  | seq h => exact itemsFrom_reordered hd h hn
  | map => cases hn

theorem membersInto_cons_eq_ok_iff {d : Decoder α} {t u : Table String α} {k : Option String} {n : Node}
    {r : Members} :
    Decoder.membersInto d t (.cons k n r) = .ok u ↔
      ∃ name a, k = some name ∧ d n = .ok a ∧ Decoder.membersInto d (t.insert name a) r = .ok u := by
  constructor
  · intro h
    cases k with
    | none => cases h
    | some name =>
        rw [Decoder.membersInto] at h
        split at h
        · cases h
        · rename_i a hn
          exact ⟨name, a, rfl, within_eq_ok_iff.mp hn, h⟩
  · rintro ⟨name, a, rfl, hn, h⟩
    simp only [Decoder.membersInto, within_eq_ok_iff.mpr hn]
    exact h

theorem membersInto_reordered {d : Decoder α} (hd : Unordered d) {t u : Table String α} {xs ys : Members}
    (h : xs.Reordered ys) (hxs : Decoder.membersInto d t xs = .ok u) :
    Decoder.membersInto d t ys = .ok u := by
  fun_induction Decoder.membersInto d t xs generalizing ys with
  | case1 t =>
      cases h
      exact hxs
  | case2 => cases hxs
  | case3 t k n r a hn ih =>
      rcases h.cons_cases with ⟨m, zs, rfl, head, tail⟩ | ⟨l, m, zs, hapart, rfl, rfl⟩
      · exact membersInto_cons_eq_ok_iff.mpr ⟨k, a, rfl, hd n m a head (within_eq_ok_iff.mp hn), ih tail hxs⟩
      · obtain ⟨j, b, rfl, hm, hzs⟩ := membersInto_cons_eq_ok_iff.mp hxs
        rw [Table.insert_comm t hapart.ne] at hzs
        have hn := within_eq_ok_iff.mp hn
        exact membersInto_cons_eq_ok_iff.mpr
          ⟨j, b, rfl, hm, membersInto_cons_eq_ok_iff.mpr ⟨k, a, rfl, hn, hzs⟩⟩
  | case4 => cases hxs

theorem Unordered.table {d : Decoder α} (hd : Unordered d) : Unordered (.table d) := by
  intro n m t h hn
  cases h with
  | same => exact hn
  | seq => cases hn
  | map h => exact membersInto_reordered hd h hn

namespace Record

def Kin (found other : List (String × Node)) : Prop :=
  ∀ name, (found.lookup name = none ∧ other.lookup name = none) ∨
    ∃ n m, found.lookup name = some n ∧ other.lookup name = some m ∧ n.Reordered m

theorem kin_refl (found : List (String × Node)) : Kin found found := by
  intro name
  cases found.lookup name with
  | none => exact .inl ⟨rfl, rfl⟩
  | some n => exact .inr ⟨n, n, rfl, rfl, .same n⟩

theorem Kin.of_lookup_eq {found other another : List (String × Node)} (hkin : Kin found other)
    (h : ∀ name, other.lookup name = another.lookup name) : Kin found another := by
  intro name
  rw [← h name]
  exact hkin name

theorem Kin.cons {found other : List (String × Node)} (h : Kin found other) (k : String) {n m : Node}
    (hn : n.Reordered m) : Kin ((k, n) :: found) ((k, m) :: other) := by
  intro name
  rw [List.lookup_cons, List.lookup_cons]
  cases name == k with
  | true => exact .inr ⟨n, m, rfl, rfl, hn⟩
  | false => exact h name

theorem Kin.lookup_eq_none {found other : List (String × Node)} (h : Kin found other) {name : String}
    (hnone : found.lookup name = none) : other.lookup name = none := by
  rcases h name with ⟨-, hother⟩ | ⟨n, m, hfound, -, -⟩
  · exact hother
  · cases hnone.symm.trans hfound

structure Unordered (r : Record α) : Prop where
  checks : ∀ f ∈ r.fields, Json.Unordered f.check
  builds : ∀ {s : Slots} {other : List (String × Node)}, Kin s.found other →
    ∀ {a : α}, r.build s = .ok a → r.build { s with found := other } = .ok a

theorem unordered_required (name : String) {d : Decoder α} (hd : Json.Unordered d) :
    (required name d).Unordered := by
  constructor
  · intro f hf
    obtain rfl := List.mem_singleton.mp hf
    exact hd.map fun _ => ()
  · intro s other hkin a h
    simp only [required] at h ⊢
    rcases hkin name with ⟨hfound, -⟩ | ⟨n, m, hfound, hother, hn⟩
    · rw [hfound] at h
      cases h
    · rw [hfound] at h
      rw [hother]
      exact hd n m a hn h

theorem unordered_optional (name : String) {d : Decoder α} (hd : Json.Unordered d) (default : α) :
    (optional name d default).Unordered := by
  constructor
  · intro f hf
    obtain rfl := List.mem_singleton.mp hf
    exact hd.map fun _ => ()
  · intro s other hkin a h
    simp only [optional] at h ⊢
    rcases hkin name with ⟨hfound, hother⟩ | ⟨n, m, hfound, hother, hn⟩
    · rw [hfound] at h
      rw [hother]
      exact h
    · rw [hfound] at h
      rw [hother]
      exact hd n m a hn h

theorem Unordered.fmap {r : Record α} (h : r.Unordered) (f : α → β) : (f <$> r).Unordered := by
  refine ⟨h.checks, fun hkin b hb => ?_⟩
  obtain ⟨a, ha, hf⟩ := build_map_eq_ok_iff.mp hb
  exact build_map_eq_ok_iff.mpr ⟨a, h.builds hkin ha, hf⟩

theorem Unordered.seq {q : Record (α → β)} {r : Record α} (hq : q.Unordered) (hr : r.Unordered) :
    (q <*> r).Unordered := by
  constructor
  · intro f hf
    rcases List.mem_append.mp hf with hf | hf
    · exact hq.checks f hf
    · exact hr.checks f hf
  · intro s other hkin b hb
    obtain ⟨f, a, hf, ha, hb⟩ := build_seq_eq_ok_iff.mp hb
    exact build_seq_eq_ok_iff.mpr ⟨f, a, hq.builds hkin hf, hr.builds hkin ha, hb⟩

inductive Takes (fields : List Field) (strict : Bool) (found : List (String × Node)) :
    Option String → Node → List (String × Node) → Prop where
  | known {k : String} {n : Node} {f : Field} (hfind : fields.find? (fun f => f.name == k) = some f)
      (hnew : found.lookup k = none) (hcheck : f.check n = .ok ()) :
      Takes fields strict found (some k) n ((k, n) :: found)
  | unknown {k : String} {n : Node} (hfind : fields.find? (fun f => f.name == k) = none)
      (hstrict : strict = false) (hintact : n.intact = true) : Takes fields strict found (some k) n found

theorem collect_cons_eq_ok_iff {fields : List Field} {strict : Bool} {found r : List (String × Node)}
    {k : Option String} {n : Node} {xs : Members} :
    collect fields strict found (.cons k n xs) = .ok r ↔
      ∃ mid, Takes fields strict found k n mid ∧ collect fields strict mid xs = .ok r := by
  constructor
  · intro h
    cases k with
    | none => cases h
    | some k =>
        rw [collect] at h
        split at h
        · rename_i f hfind
          split at h
          · cases h
          · rename_i hnew
            split at h
            · cases h
            · rename_i hcheck
              have hnone : found.lookup k = none := Option.not_isSome_iff_eq_none.mp hnew
              exact ⟨_, .known hfind hnone (within_eq_ok_iff.mp hcheck), h⟩
        · rename_i hfind
          split at h
          · cases h
          · rename_i hstrict
            split at h
            · rename_i hintact
              exact ⟨_, .unknown hfind (by simpa using hstrict) hintact, h⟩
            · cases h
  · rintro ⟨mid, htakes, hmid⟩
    cases htakes with
    | @known k _ f hfind hnew hcheck =>
        have hfree : ¬ (found.lookup k).isSome := Option.not_isSome_iff_eq_none.mpr hnew
        simp only [collect, hfind, if_neg hfree, hcheck]
        exact hmid
    | unknown hfind hstrict hintact =>
        simp only [collect, hfind, hstrict, Bool.false_eq_true, if_false, if_pos hintact]
        rwa [hstrict] at hmid

theorem Takes.kin {fields : List Field} (h : ∀ f ∈ fields, Json.Unordered f.check) {strict : Bool}
    {found mid other : List (String × Node)} {k : Option String} {n m : Node}
    (htakes : Takes fields strict found k n mid) (hkin : Kin found other) (hn : n.Reordered m) :
    ∃ mid', Takes fields strict other k m mid' ∧ Kin mid mid' := by
  cases htakes with
  | known hfind hnew hcheck =>
      have hcheck' := h _ (List.mem_of_find?_eq_some hfind) n m () hn hcheck
      exact ⟨_, .known hfind (hkin.lookup_eq_none hnew) hcheck', hkin.cons _ hn⟩
  | unknown hfind hstrict hintact =>
      exact ⟨other, .unknown hfind hstrict (hn.intact_eq.trans hintact), hkin⟩

theorem lookup_cons_of_ne {found : List (String × Node)} {j k : String} {n : Node} (h : j ≠ k) :
    ((k, n) :: found).lookup j = found.lookup j := by
  rw [List.lookup_cons, beq_false_of_ne h]

theorem lookup_cons_cons_comm (found : List (String × Node)) {j k : String} (h : j ≠ k) (n m : Node)
    (name : String) :
    ((k, m) :: (j, n) :: found).lookup name = ((j, n) :: (k, m) :: found).lookup name := by
  simp only [List.lookup_cons]
  cases hj : name == j with
  | true =>
      have hk : (name == k) = false := beq_false_of_ne fun hk => h ((beq_iff_eq.mp hj).symm.trans hk)
      rw [hk]
  | false => rfl

theorem Takes.swap {fields : List Field} {strict : Bool} {found mid r : List (String × Node)}
    {k l : Option String} {n m : Node} (hapart : Apart k l) (hk : Takes fields strict found k n mid)
    (hl : Takes fields strict mid l m r) :
    ∃ mid' r', Takes fields strict found l m mid' ∧ Takes fields strict mid' k n r' ∧
      ∀ name, r.lookup name = r'.lookup name := by
  cases hk with
  | known hfind hnew hcheck =>
      cases hl with
      | known hfind' hnew' hcheck' =>
          have hne := hapart.ne
          rw [lookup_cons_of_ne hne.symm] at hnew'
          refine ⟨_, _, .known hfind' hnew' hcheck', .known hfind ?_ hcheck, ?_⟩
          · rwa [lookup_cons_of_ne hne]
          · exact lookup_cons_cons_comm found hne n m
      | unknown hfind' hstrict' hintact' =>
          exact ⟨_, _, .unknown hfind' hstrict' hintact', .known hfind hnew hcheck, fun _ => rfl⟩
  | unknown hfind hstrict hintact =>
      cases hl with
      | known hfind' hnew' hcheck' =>
          exact ⟨_, _, .known hfind' hnew' hcheck', .unknown hfind hstrict hintact, fun _ => rfl⟩
      | unknown hfind' hstrict' hintact' =>
          exact ⟨_, _, .unknown hfind' hstrict' hintact', .unknown hfind hstrict hintact, fun _ => rfl⟩

theorem collect_kin {fields : List Field} {strict : Bool} {found other r : List (String × Node)}
    {xs : Members} (hkin : Kin found other) (hxs : collect fields strict found xs = .ok r) :
    ∃ s, collect fields strict other xs = .ok s ∧ Kin r s := by
  fun_induction collect fields strict found xs generalizing other r with
  | case1 found =>
      cases hxs
      exact ⟨other, rfl, hkin⟩
  | case2 => cases hxs
  | case3 => cases hxs
  | case4 found k n xs f hfind hnew u hcheck ih =>
      obtain ⟨s, hs, hkin'⟩ := ih (hkin.cons k (.same n)) hxs
      have hnone := hkin.lookup_eq_none (Option.not_isSome_iff_eq_none.mp hnew)
      have htakes : Takes fields strict other (some k) n ((k, n) :: other) :=
        .known hfind hnone (within_eq_ok_iff.mp hcheck)
      exact ⟨s, collect_cons_eq_ok_iff.mpr ⟨_, htakes, hs⟩, hkin'⟩
  | case5 => cases hxs
  | case6 found k n xs hfind hstrict hintact ih =>
      obtain ⟨s, hs, hkin'⟩ := ih hkin hxs
      have htakes : Takes fields strict other (some k) n other :=
        .unknown hfind (Bool.eq_false_iff.mpr hstrict) hintact
      exact ⟨s, collect_cons_eq_ok_iff.mpr ⟨_, htakes, hs⟩, hkin'⟩
  | case7 => cases hxs
  | case8 => cases hxs

theorem collect_reordered {fields : List Field} (h : ∀ f ∈ fields, Json.Unordered f.check) {strict : Bool}
    {found other r : List (String × Node)} {xs ys : Members} (hkin : Kin found other) (hxs : xs.Reordered ys)
    (hr : collect fields strict found xs = .ok r) :
    ∃ s, collect fields strict other ys = .ok s ∧ Kin r s := by
  match hxs with
  | .same _ => exact collect_kin hkin hr
  | .cons k head tail =>
      obtain ⟨mid, htakes, hr⟩ := collect_cons_eq_ok_iff.mp hr
      obtain ⟨mid', htakes', hkin'⟩ := htakes.kin h hkin head
      obtain ⟨s, hs, hkin⟩ := collect_reordered h hkin' tail hr
      exact ⟨s, collect_cons_eq_ok_iff.mpr ⟨mid', htakes', hs⟩, hkin⟩
  | .swap hapart n m zs =>
      -- each of the two is taken without the other, so what they add may change places
      obtain ⟨mid, hk, hrest⟩ := collect_cons_eq_ok_iff.mp hr
      obtain ⟨both, hl, hr⟩ := collect_cons_eq_ok_iff.mp hrest
      obtain ⟨mid', hk', hkin'⟩ := hk.kin h hkin (.same n)
      obtain ⟨both', hl', hkin'⟩ := hl.kin h hkin' (.same m)
      obtain ⟨first, second, hfirst, hsecond, hsame⟩ := hk'.swap hapart hl'
      obtain ⟨s, hs, hkin⟩ := collect_kin (hkin'.of_lookup_eq hsame) hr
      have hrest := collect_cons_eq_ok_iff.mpr ⟨second, hsecond, hs⟩
      exact ⟨s, collect_cons_eq_ok_iff.mpr ⟨first, hfirst, hrest⟩, hkin⟩

theorem place_reordered {fields : List Field} (h : ∀ f ∈ fields, Json.Unordered f.check) {i : Nat}
    {found other r : List (String × Node)} {xs ys : Items} (hkin : Kin found other) (hxs : xs.Reordered ys)
    (hr : place i found fields xs = .ok (r, .closed)) :
    ∃ s, place i other fields ys = .ok (s, .closed) ∧ Kin r s := by
  fun_induction place i found fields xs generalizing other ys with
  | case1 i found xs =>
      cases hr
      cases hxs
      exact ⟨other, rfl, hkin⟩
  | case2 i found f fields =>
      cases hr
      cases hxs
      exact ⟨other, rfl, hkin⟩
  | case3 => cases hr
  | case4 => cases hr
  | case5 i found f fields n xs u hcheck ih =>
      obtain ⟨m, zs, rfl, head, tail⟩ := hxs.exists_cons
      have hcheck' := h f List.mem_cons_self n m () head (within_eq_ok_iff.mp hcheck)
      obtain ⟨s, hs, hkin'⟩ := ih (fun g hg => h g (List.mem_cons_of_mem f hg)) (hkin.cons f.name head) tail hr
      exact ⟨s, place_cons_eq_ok_iff.mpr ⟨hcheck', hs⟩, hkin'⟩

theorem Unordered.decode {r : Record α} (h : r.Unordered) (expected : String) (strict : Bool) :
    Json.Unordered (r.decode expected strict) := by
  intro n m a hn hok
  cases hn with
  | same => exact hok
  | map hxs =>
      obtain ⟨found, hfound, hbuild⟩ := decode_map_eq_ok_iff.mp hok
      obtain ⟨other, hother, hkin⟩ := collect_reordered h.checks (kin_refl []) hxs hfound
      exact decode_map_eq_ok_iff.mpr ⟨other, hother, h.builds hkin hbuild⟩
  | seq hxs =>
      obtain ⟨found, hfound, hbuild⟩ := decode_seq_eq_ok_iff.mp hok
      obtain ⟨other, hother, hkin⟩ := place_reordered h.checks (kin_refl []) hxs hfound
      exact decode_seq_eq_ok_iff.mpr ⟨other, hother, h.builds hkin hbuild⟩

end Record

def Variant.Unordered (v : Variant α) : Prop :=
  Json.Unordered v.decodeContent

namespace Variant

theorem unordered_unit (name : String) (a : α) : (Variant.mk name (.unit a)).Unordered :=
  ((Json.unordered_unit "unit").map fun _ => a).within (.name name)

theorem unordered_value (name : String) {d : Decoder α} (h : Json.Unordered d) :
    (Variant.mk name (.value d)).Unordered :=
  h.within (.name name)

theorem unordered_record (name : String) {d : Decoder α} (h : Json.Unordered d) :
    (Variant.mk name (.record d)).Unordered :=
  h.within (.name name)

theorem unordered_decode {variants : List (Variant α)} (h : ∀ v ∈ variants, v.Unordered) :
    Json.Unordered (decode variants) := by
  intro n m a hn hok
  cases hn with
  | same => exact hok
  | seq => cases hok
  | @map xs ys hxs =>
      match xs with
      | .cons (some name) k rest =>
          obtain ⟨v, hv, hok⟩ := bind_eq_ok_iff.mp hok
          obtain ⟨b, hb, hok⟩ := bind_eq_ok_iff.mp hok
          cases rest with
          | closed =>
              cases hok
              rcases hxs.cons_cases with ⟨l, zs, rfl, head, tail⟩ | ⟨_, _, _, _, heq, _⟩
              · cases tail
                have hl := h v (mem_of_select hv) k l a head hb
                exact bind_eq_ok_iff.mpr ⟨v, hv, bind_eq_ok_iff.mpr ⟨a, hl, rfl⟩⟩
              · cases heq
          | broken => cases hok
          | cons => cases hok
      | .cons none _ _ => cases hok
      | .closed => cases hok
      | .broken => cases hok

end Variant

end Json

end RunControl
