import RunControl.Proofs.Json.Extent
import RunControl.Proofs.Json.Records

namespace RunControl.Json

variable {α β : Type}

def Thorough (d : Decoder α) : Prop :=
  ∀ n a, d n = .ok a → n.intact = true

def Enclosing (d : Decoder α) : Prop :=
  ∀ n a, d n = .ok a → n.enclosed = true

theorem Enclosing.thorough {d : Decoder α} (h : Enclosing d) : Thorough d :=
  fun n a hn => Node.intact_of_enclosed (h n a hn)

theorem Thorough.map {d : Decoder α} (h : Thorough d) (f : α → β) : Thorough fun n => (d n).map f := by
  intro n b hn
  obtain ⟨a, ha, -⟩ := map_eq_ok_iff.mp hn
  exact h n a ha

theorem thorough_of_flat {d : Decoder α} (hseq : ∀ items a, d (.seq items) ≠ .ok a)
    (hmap : ∀ members a, d (.map members) ≠ .ok a) (hbroken : ∀ a, d .broken ≠ .ok a) : Thorough d := by
  intro n a hn
  cases n with
  | seq items => exact absurd hn (hseq items a)
  | map members => exact absurd hn (hmap members a)
  | broken => exact absurd hn (hbroken a)
  | _ => rfl

theorem thorough_natural (bound : Nat) (expected : String) : Thorough (.natural bound expected) :=
  thorough_of_flat (fun _ _ => nofun) (fun _ _ => nofun) fun _ => nofun

theorem thorough_word32 : Thorough .word32 :=
  (thorough_natural _ _).map UInt32.ofNat

theorem thorough_word64 (expected : String) : Thorough (.word64 expected) :=
  (thorough_natural _ _).map UInt64.ofNat

theorem thorough_real : Thorough .real :=
  thorough_of_flat (fun _ _ => nofun) (fun _ _ => nofun) fun _ => nofun

theorem thorough_boolean : Thorough .boolean :=
  thorough_of_flat (fun _ _ => nofun) (fun _ _ => nofun) fun _ => nofun

theorem thorough_string : Thorough .string :=
  thorough_of_flat (fun _ _ => nofun) (fun _ _ => nofun) fun _ => nofun

theorem thorough_unit (expected : String) : Thorough (.unit expected) :=
  thorough_of_flat (fun _ _ => nofun) (fun _ _ => nofun) fun _ => nofun

theorem Thorough.nullable {d : Decoder α} (h : Thorough d) : Thorough (.nullable d) := by
  intro n a hn
  cases n with
  | null => rfl
  | _ => exact h.map some _ a hn

theorem intact_of_itemsFrom {d : Decoder α} (h : Thorough d) {i : Nat} {items : Items} {as : List α}
    (hi : Decoder.itemsFrom d i items = .ok as) : items.intact = true := by
  fun_induction Decoder.itemsFrom d i items generalizing as with
  | case1 => rfl
  | case2 => cases hi
  | case3 => cases hi
  | case4 => cases hi
  | case5 i n r a hn as hr ih =>
      rw [Items.intact, h n a (within_eq_ok_iff.mp hn), ih hr]
      rfl

theorem Thorough.list {d : Decoder α} (h : Thorough d) : Enclosing (.list d) := by
  intro n as hn
  cases n with
  | seq items => exact intact_of_itemsFrom h hn
  | _ => cases hn

theorem intact_of_membersInto {d : Decoder α} (h : Thorough d) {t u : Table String α} {members : Members}
    (hm : Decoder.membersInto d t members = .ok u) : members.intact = true := by
  fun_induction Decoder.membersInto d t members with
  | case1 => rfl
  | case2 => cases hm
  | case3 t k n r a hn ih =>
      rw [Members.intact, h n a (within_eq_ok_iff.mp hn), ih hm]
      rfl
  | case4 => cases hm

theorem Thorough.table {d : Decoder α} (h : Thorough d) : Enclosing (.table d) := by
  intro n t hn
  cases n with
  | map members => exact intact_of_membersInto h hn
  | _ => cases hn

def Record.Thorough (r : Record α) : Prop :=
  ∀ f ∈ r.fields, ∀ n, f.check n = .ok () → n.intact = true

namespace Record

theorem thorough_required (name : String) {d : Decoder α} (h : Json.Thorough d) :
    (required name d).Thorough := by
  intro f hf n hn
  obtain rfl := List.mem_singleton.mp hf
  exact h.map (fun _ => ()) n () hn

theorem thorough_optional (name : String) {d : Decoder α} (h : Json.Thorough d) (default : α) :
    (optional name d default).Thorough := by
  intro f hf n hn
  obtain rfl := List.mem_singleton.mp hf
  exact h.map (fun _ => ()) n () hn

theorem Thorough.fmap {r : Record α} (h : r.Thorough) (f : α → β) : (f <$> r).Thorough :=
  h

theorem Thorough.seq {q : Record (α → β)} {r : Record α} (hq : q.Thorough) (hr : r.Thorough) :
    (q <*> r).Thorough := by
  intro f hf
  rcases List.mem_append.mp hf with hf | hf
  · exact hq f hf
  · exact hr f hf

theorem intact_of_collect {fields : List Field} (h : ∀ f ∈ fields, ∀ n, f.check n = .ok () → n.intact = true)
    {strict : Bool} {found r : List (String × Node)} {ms : Members}
    (hm : collect fields strict found ms = .ok r) : ms.intact = true := by
  fun_induction collect fields strict found ms with
  | case1 => rfl
  | case2 => cases hm
  | case3 => cases hm
  | case4 found k n rest f hfind hnew u hcheck ih =>
      rw [Members.intact, h f (List.mem_of_find?_eq_some hfind) n (within_eq_ok_iff.mp hcheck), ih hm]
      rfl
  | case5 => cases hm
  | case6 found k n rest hfind hstrict hintact ih =>
      rw [Members.intact, hintact, ih hm]
      rfl
  | case7 => cases hm
  | case8 => cases hm

theorem intact_of_place {fields : List Field} (h : ∀ f ∈ fields, ∀ n, f.check n = .ok () → n.intact = true)
    {i : Nat} {found r : List (String × Node)} {items : Items}
    (hp : place i found fields items = .ok (r, .closed)) : items.intact = true := by
  fun_induction place i found fields items with
  | case1 i found rest =>
      cases hp
      rfl
  | case2 => rfl
  | case3 => cases hp
  | case4 => cases hp
  | case5 i found f fields n items u hcheck ih =>
      rw [Items.intact, h f List.mem_cons_self n (within_eq_ok_iff.mp hcheck),
        ih (fun g hg => h g (List.mem_cons_of_mem f hg)) hp]
      rfl

theorem Thorough.decode {r : Record α} (h : r.Thorough) (expected : String) (strict : Bool) :
    Enclosing (r.decode expected strict) := by
  intro n a hn
  cases n with
  | map members =>
      obtain ⟨found, hfound, -⟩ := decode_map_eq_ok_iff.mp hn
      exact intact_of_collect h hfound
  | seq items =>
      obtain ⟨found, hfound, -⟩ := decode_seq_eq_ok_iff.mp hn
      exact intact_of_place h hfound
  | _ => cases hn

end Record

def Variant.Thorough (v : Variant α) : Prop :=
  Json.Thorough v.decodeContent

namespace Variant

theorem thorough_unit (name : String) (a : α) : (Variant.mk name (.unit a)).Thorough := by
  intro n b hn
  exact ((Json.thorough_unit "unit").map fun _ => a) n b (within_eq_ok_iff.mp hn)

theorem thorough_value (name : String) {d : Decoder α} (h : Json.Thorough d) :
    (Variant.mk name (.value d)).Thorough :=
  fun n a hn => h n a (within_eq_ok_iff.mp hn)

theorem thorough_record (name : String) {d : Decoder α} (h : Json.Thorough d) :
    (Variant.mk name (.record d)).Thorough :=
  fun n a hn => h n a (within_eq_ok_iff.mp hn)

theorem mem_of_select {variants : List (Variant α)} {name : String} {v : Variant α}
    (h : select variants name = .ok v) : v ∈ variants := by
  unfold select at h
  split at h
  · rename_i u hfind
    cases h
    exact List.mem_of_find?_eq_some hfind
  · cases h

theorem enclosing_decode {variants : List (Variant α)} (h : ∀ v ∈ variants, v.Thorough) :
    Enclosing (decode variants) := by
  intro n a hn
  match n with
  | .str _ => rfl
  | .map (.cons (some name) m rest) =>
      obtain ⟨v, hv, hn⟩ := bind_eq_ok_iff.mp hn
      obtain ⟨b, hb, hrest⟩ := bind_eq_ok_iff.mp hn
      cases rest with
      | closed =>
          rw [Node.enclosed, Members.intact, h v (mem_of_select hv) m b hb]
          rfl
      | broken => cases hrest
      | cons => cases hrest
  | .map (.cons none _ _) => cases hn
  | .map .closed => rfl
  | .map .broken => cases hn
  | .seq _ => cases hn
  | .null => cases hn
  | .bool _ => cases hn
  | .num _ => cases hn
  | .broken => cases hn

end Variant

def PrefixStable (d : Decoder α) : Prop :=
  ∀ text a, decodeText d text = .ok a → ∀ more, decodeText d (text ++ more) = .ok a

structure Shortest (d : Decoder α) (text : String) (a : α) : Prop where
  decoded : decodeText d text = .ok a
  shortest : ∀ part more, text = part ++ more → more ≠ "" → ∀ b, decodeText d part ≠ .ok b

def Alone (d : Decoder α) (text : String) (a : α) : Prop :=
  ∃ value blanks, text = value ++ blanks ∧ Shortest d value a ∧ blanks.toList.all isBlank = true

theorem Enclosing.prefixStable {d : Decoder α} (hd : Enclosing d) : PrefixStable d := by
  intro text a h more
  obtain ⟨used, hused, he⟩ := exists_extent (hd _ a h)
  rw [decodeText, String.toList_append, hused, List.append_assoc, he.read_append]
  exact h

theorem shortest_of_extent {d : Decoder α} (hd : Enclosing d) {text : String} {n : Node} {a : α}
    (he : Extent (.reading .between []) n text.toList) (hn : d n = .ok a) : Shortest d text a := by
  constructor
  · rw [decodeText, he.read_eq, hn]
  · intro part more htext hmore b hb
    have hlist : text.toList = part.toList ++ more.toList := by rw [htext, String.toList_append]
    have hne : part.toList ≠ text.toList := by
      intro heq
      rw [hlist, List.self_eq_append_right] at heq
      exact hmore (String.toList_eq_nil_iff.mp heq)
    have hyes := hd _ b hb
    rw [read, he.shortest part.toList ⟨more.toList, hlist.symm⟩ hne] at hyes
    cases hyes

theorem Shortest.exists_extent {d : Decoder α} (hd : Enclosing d) {text : String} {a : α}
    (h : Shortest d text a) : ∃ n, Extent (.reading .between []) n text.toList ∧ d n = .ok a := by
  obtain ⟨used, hused, he⟩ := Json.exists_extent (hd _ a h.decoded)
  have htext : text = String.ofList used ++ String.ofList (read text.toList).2 := by
    rw [← String.ofList_append, ← hused, String.ofList_toList]
  by_cases hmore : String.ofList (read text.toList).2 = ""
  · rw [hmore, String.append_empty] at htext
    rw [← String.toList_ofList (l := used), ← htext] at he
    exact ⟨_, he, h.decoded⟩
  · refine absurd ?_ (h.shortest _ _ htext hmore a)
    rw [decodeText, String.toList_ofList, he.read_eq]
    exact h.decoded

theorem decodeWhole?_eq_some_iff_read {d : Decoder α} {text : String} {a : α} :
    decodeWhole? d text = some a ↔
      d (read text.toList).1 = .ok a ∧ (read text.toList).2.all isBlank = true := by
  simp only [decodeWhole?]
  cases d (read text.toList).1 with
  | error e => simp
  | ok b => simp [and_comm]

theorem Enclosing.decodeWhole?_eq_some_iff {d : Decoder α} (hd : Enclosing d) {text : String} {a : α} :
    decodeWhole? d text = some a ↔ Alone d text a := by
  rw [decodeWhole?_eq_some_iff_read]
  constructor
  · rintro ⟨hn, hblank⟩
    obtain ⟨used, hused, he⟩ := exists_extent (hd _ a hn)
    refine ⟨String.ofList used, String.ofList (read text.toList).2, ?_, shortest_of_extent hd ?_ hn, ?_⟩
    · rw [← String.ofList_append, ← hused, String.ofList_toList]
    · rwa [String.toList_ofList]
    · rwa [String.toList_ofList]
  · rintro ⟨value, blanks, rfl, hs, hblank⟩
    obtain ⟨n, he, hn⟩ := hs.exists_extent hd
    rw [String.toList_append, he.read_append]
    exact ⟨hn, hblank⟩

end RunControl.Json
