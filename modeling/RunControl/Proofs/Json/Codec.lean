import Mathlib.Data.List.Forall2
import Mathlib.Data.List.Nodup
import RunControl.Json.Decoder
import RunControl.Proofs.Json.Numeral

namespace RunControl.Json

variable {α β : Type}

structure Spells (d : Decoder α) (n : Node) (a : α) : Prop where
  legible : n.legible = true
  solid : n ≠ .null
  decoded : d n = .ok a

theorem Spells.decodeText {d : Decoder α} {n : Node} {a : α} (h : Spells d n a) :
    decodeText d n.text = .ok a := by
  have hr := read_render h.legible
  rw [Json.decodeText, Node.text, String.toList_ofList, hr]
  exact h.decoded

theorem Spells.decodeWhole? {d : Decoder α} {n : Node} {a : α} (h : Spells d n a) :
    decodeWhole? d n.text = some a := by
  have hr := read_render h.legible
  simp only [Json.decodeWhole?, Node.text, String.toList_ofList, hr, h.decoded]
  rfl

theorem spells_boolean (b : Bool) : Spells .boolean (.bool b) b :=
  ⟨rfl, nofun, rfl⟩

theorem spells_string (s : String) : Spells .string (.ofString s) s :=
  ⟨rfl, nofun, rfl⟩

theorem natural_ofNat {n bound : Nat} (h : n < bound) (hb : bound ≤ 0x10000000000000000)
    (expected : String) : Decoder.natural bound expected (.ofNat n) = .ok n := by
  have hn := Number.ofLexeme?_toDigits (Nat.lt_of_lt_of_le h hb)
  simp only [Node.ofNat, Decoder.natural, hn, if_pos h]

theorem spells_word32 (a : UInt32) : Spells .word32 (.ofNat a.toNat) a := by
  refine ⟨isNumeral_toDigits a.toNat, nofun, ?_⟩
  have hn := natural_ofNat a.toNat_lt (by decide) "u32"
  rw [Decoder.word32]
  change (Decoder.natural 0x100000000 "u32" _).map UInt32.ofNat = _
  rw [hn]
  exact congrArg Except.ok UInt32.ofNat_toNat

theorem spells_word64 (a : UInt64) (expected : String) :
    Spells (.word64 expected) (.ofNat a.toNat) a := by
  refine ⟨isNumeral_toDigits a.toNat, nofun, ?_⟩
  have hn := natural_ofNat a.toNat_lt (Nat.le_refl _) expected
  rw [Decoder.word64]
  change (Decoder.natural 0x10000000000000000 expected _).map UInt64.ofNat = _
  rw [hn]
  exact congrArg Except.ok UInt64.ofNat_toNat

theorem Items.legible_ofList {ns : List Node} (h : ∀ n ∈ ns, n.legible = true) :
    (Items.ofList .closed ns).legible = true := by
  induction ns with
  | nil => rfl
  | cons n ns ih =>
      rw [ofList, legible, h n List.mem_cons_self, ih fun m hm => h m (List.mem_cons_of_mem _ hm)]
      rfl

theorem itemsFrom_ofList {d : Decoder α} {toNode : α → Node} (h : ∀ a, d (toNode a) = .ok a) (i : Nat)
    (as : List α) : Decoder.itemsFrom d i (Items.ofList .closed (as.map toNode)) = .ok as := by
  induction as generalizing i with
  | nil => rfl
  | cons a as ih =>
      rw [List.map_cons, Items.ofList, Decoder.itemsFrom, h, ih]
      rfl

theorem spells_list {d : Decoder α} {toNode : α → Node} (h : ∀ a, Spells d (toNode a) a) (as : List α) :
    Spells (.list d) (.list (as.map toNode)) as := by
  refine ⟨Items.legible_ofList ?_, nofun, itemsFrom_ofList (fun a => (h a).decoded) 0 as⟩
  intro n hn
  obtain ⟨a, -, rfl⟩ := List.mem_map.mp hn
  exact (h a).legible

theorem spells_nullable {d : Decoder α} {n : Node} {a : α} (h : Spells d n a) :
    Spells (.nullable d) n (some a) := by
  refine ⟨h.legible, h.solid, ?_⟩
  have hd : Decoder.nullable d n = (d n).map some := by
    cases n with
    | null => exact absurd rfl h.solid
    | _ => rfl
  rw [hd, h.decoded]
  rfl

theorem Members.legible_ofList {ms : List (String × Node)} (h : ∀ m ∈ ms, m.2.legible = true) :
    (Node.object ms).legible = true := by
  rw [Node.object, Node.legible]
  induction ms with
  | nil => rfl
  | cons m ms ih =>
      rw [List.map_cons, ofList, legible, h m List.mem_cons_self,
        ih fun k hk => h k (List.mem_cons_of_mem _ hk)]
      rfl

theorem lookup_of_mem {ms : List (String × Node)} (hd : (ms.map Prod.fst).Nodup) {m : String × Node}
    (h : m ∈ ms) : ms.lookup m.1 = some m.2 := by
  induction ms with
  | nil => cases h
  | cons e ms ih =>
      obtain ⟨he, hd⟩ := List.nodup_cons.mp hd
      rcases List.mem_cons.mp h with rfl | h
      · exact List.lookup_cons_self
      · have hne : m.1 ≠ e.1 := fun heq => he (heq ▸ List.mem_map_of_mem h)
        rw [List.lookup_cons, beq_false_of_ne hne]
        exact ih hd h

theorem lookup_of_notMem {ms : List (String × Node)} {k : String} (h : k ∉ ms.map Prod.fst) :
    ms.lookup k = none := by
  refine List.lookup_eq_none_iff.mpr fun m hm => bne_iff_ne.mpr ?_
  rintro rfl
  exact h (List.mem_map_of_mem hm)

theorem find?_name {fields : List Field} (hd : (fields.map Field.name).Nodup) {f : Field}
    (h : f ∈ fields) : fields.find? (fun g => g.name == f.name) = some f := by
  induction fields with
  | nil => cases h
  | cons g fields ih =>
      obtain ⟨hg, hd⟩ := List.nodup_cons.mp hd
      rcases List.mem_cons.mp h with rfl | h
      · exact List.find?_cons_of_pos (beq_self_eq_true f.name)
      · have hne : g.name ≠ f.name := fun heq => hg (heq ▸ List.mem_map_of_mem h)
        rw [List.find?_cons_of_neg (by simpa using hne)]
        exact ih hd h

def present (slots : List (String × Option Node)) : List (String × Node) :=
  slots.filterMap fun e => e.2.map fun n => (e.1, n)

theorem mem_present {slots : List (String × Option Node)} {m : String × Node} :
    m ∈ present slots ↔ (m.1, some m.2) ∈ slots := by
  simp only [present, List.mem_filterMap, Option.map_eq_some_iff]
  constructor
  · rintro ⟨⟨k, o⟩, he, n, rfl, rfl⟩
    exact he
  · intro h
    exact ⟨_, h, m.2, rfl, rfl⟩

theorem names_present_sublist (slots : List (String × Option Node)) :
    ((present slots).map Prod.fst).Sublist (slots.map Prod.fst) := by
  induction slots with
  | nil => exact .slnil
  | cons e slots ih =>
      obtain ⟨k, _ | n⟩ := e
      · exact ih.cons k
      · exact ih.cons_cons k

theorem lookup_present {slots : List (String × Option Node)} (hd : (slots.map Prod.fst).Nodup)
    {e : String × Option Node} (he : e ∈ slots) : (present slots).reverse.lookup e.1 = e.2 := by
  obtain ⟨k, o⟩ := e
  have hp : ((present slots).map Prod.fst).Nodup := hd.sublist (names_present_sublist slots)
  cases o with
  | some n =>
      have hr : ((present slots).reverse.map Prod.fst).Nodup := by
        rw [List.map_reverse]
        exact List.nodup_reverse.mpr hp
      exact lookup_of_mem hr (m := (k, n)) (List.mem_reverse.mpr (mem_present.mpr he))
  | none =>
      apply lookup_of_notMem
      intro hk
      obtain ⟨m, hm, rfl⟩ := List.mem_map.mp hk
      have hs := mem_present.mp (List.mem_reverse.mp hm)
      have heq := List.inj_on_of_nodup_map hd he hs rfl
      cases heq

namespace Record

theorem collect_ofList {fields : List Field} (strict : Bool) {ms found : List (String × Node)}
    (hf : ∀ m ∈ ms, ∃ f, fields.find? (fun f => f.name == m.1) = some f ∧ f.check m.2 = .ok ())
    (hd : ((ms ++ found).map Prod.fst).Nodup) :
    collect fields strict found (Members.ofList .closed (ms.map fun m => (some m.1, m.2))) =
      .ok (ms.reverse ++ found) := by
  induction ms generalizing found with
  | nil => rfl
  | cons m ms ih =>
      obtain ⟨f, hfind, hcheck⟩ := hf m List.mem_cons_self
      obtain ⟨hm, -⟩ := List.nodup_cons.mp hd
      have hnew : found.lookup m.1 = none :=
        lookup_of_notMem fun hk => hm ((List.sublist_append_right ms found).map Prod.fst |>.mem hk)
      have hd' : ((ms ++ m :: found).map Prod.fst).Nodup :=
        (List.perm_middle.map Prod.fst).nodup_iff.mpr hd
      have hi := ih (fun k hk => hf k (List.mem_cons_of_mem _ hk)) hd'
      rw [List.map_cons, Members.ofList, collect, List.reverse_cons, List.append_assoc]
      simp only [hfind, hnew, hcheck]
      exact hi

def Fits (f : Field) (slot : String × Option Node) : Prop :=
  f.name = slot.1 ∧ ∀ n, slot.2 = some n → n.legible = true ∧ f.check n = .ok ()

structure Spells (r : Record α) (slots : List (String × Option Node)) (a : α) : Prop where
  fits : List.Forall₂ Fits r.fields slots
  build : ∀ s : Slots, (∀ e ∈ slots, s.found.lookup e.1 = e.2) → r.build s = .ok a

theorem names_of_fits {fields : List Field} {slots : List (String × Option Node)}
    (h : List.Forall₂ Fits fields slots) : fields.map Field.name = slots.map Prod.fst := by
  induction h with
  | nil => rfl
  | cons h _ ih => rw [List.map_cons, List.map_cons, h.1, ih]

theorem exists_fits {fields : List Field} {slots : List (String × Option Node)}
    (h : List.Forall₂ Fits fields slots) {e : String × Option Node} (he : e ∈ slots) :
    ∃ f ∈ fields, Fits f e := by
  induction h with
  | nil => cases he
  | cons h _ ih =>
      rcases List.mem_cons.mp he with rfl | he
      · exact ⟨_, List.mem_cons_self, h⟩
      · obtain ⟨f, hf, hfit⟩ := ih he
        exact ⟨f, List.mem_cons_of_mem _ hf, hfit⟩

theorem spells_required (name : String) {d : Decoder α} {n : Node} {a : α} (h : Json.Spells d n a) :
    (required name d).Spells [(name, some n)] a := by
  refine ⟨.cons ⟨rfl, ?_⟩ .nil, ?_⟩
  · rintro _ ⟨⟩
    exact ⟨h.legible, congrArg (Except.map fun _ => ()) h.decoded⟩
  · intro s hs
    rw [required]
    simp only [hs _ List.mem_cons_self]
    exact h.decoded

theorem spells_optional (name : String) {d : Decoder α} {n : Node} {a : α} (h : Json.Spells d n a)
    (default : α) : (optional name d default).Spells [(name, some n)] a := by
  refine ⟨.cons ⟨rfl, ?_⟩ .nil, ?_⟩
  · rintro _ ⟨⟩
    exact ⟨h.legible, congrArg (Except.map fun _ => ()) h.decoded⟩
  · intro s hs
    rw [optional]
    simp only [hs _ List.mem_cons_self]
    exact h.decoded

theorem spells_omitted (name : String) (d : Decoder α) (default : α) :
    (optional name d default).Spells [(name, none)] default := by
  refine ⟨.cons ⟨rfl, nofun⟩ .nil, ?_⟩
  intro s hs
  rw [optional]
  simp only [hs _ List.mem_cons_self]

theorem spells_flag (name : String) (b : Bool) :
    (optional name .boolean false).Spells [(name, if b then some (.bool true) else none)] b := by
  cases b with
  | true => exact spells_optional name (spells_boolean true) false
  | false => exact spells_omitted name .boolean false

theorem spells_absentable (name : String) {d : Decoder α} {toNode : α → Node}
    (h : ∀ a, Json.Spells d (toNode a) a) (o : Option α) :
    (optional name (.nullable d) none).Spells [(name, o.map toNode)] o := by
  cases o with
  | none => exact spells_omitted name (.nullable d) none
  | some a => exact spells_optional name (spells_nullable (h a)) none

theorem Spells.map {r : Record α} {slots : List (String × Option Node)} {a : α} (h : r.Spells slots a)
    (f : α → β) : Spells (f <$> r) slots (f a) := by
  refine ⟨h.fits, fun s hs => ?_⟩
  change (r.build s).map f = _
  rw [h.build s hs]
  rfl

theorem Spells.seq {q : Record (α → β)} {r : Record α} {slots rest : List (String × Option Node)}
    {f : α → β} {a : α} (hq : q.Spells slots f) (hr : r.Spells rest a) :
    Spells (q <*> r) (slots ++ rest) (f a) := by
  refine ⟨List.rel_append hq.fits hr.fits, fun s hs => ?_⟩
  change ((q.build s).bind fun f => (r.build s).bind fun a => .ok (f a)) = _
  rw [hq.build s fun e he => hs e (List.mem_append_left _ he),
    hr.build s fun e he => hs e (List.mem_append_right _ he)]
  rfl

theorem Spells.object {r : Record α} {slots : List (String × Option Node)} {a : α} (h : r.Spells slots a)
    (hd : (slots.map Prod.fst).Nodup) (expected : String) (strict : Bool) :
    Json.Spells (r.decode expected strict) (.object (present slots)) a := by
  have hnames : (r.fields.map Field.name).Nodup := by
    rw [names_of_fits h.fits]
    exact hd
  have hfit : ∀ m ∈ present slots, ∃ f ∈ r.fields, Fits f (m.1, some m.2) :=
    fun m hm => exists_fits h.fits (mem_present.mp hm)
  have hfound : ∀ m ∈ present slots,
      ∃ f, r.fields.find? (fun f => f.name == m.1) = some f ∧ f.check m.2 = .ok () := by
    intro m hm
    obtain ⟨f, hf, hname, hright⟩ := hfit m hm
    have hfind := find?_name hnames hf
    rw [hname] at hfind
    exact ⟨f, hfind, (hright m.2 rfl).2⟩
  refine ⟨Members.legible_ofList ?_, nofun, ?_⟩
  · intro m hm
    obtain ⟨f, -, -, hright⟩ := hfit m hm
    exact (hright m.2 rfl).1
  · have hp : ((present slots ++ []).map Prod.fst).Nodup := by
      rw [List.append_nil]
      exact hd.sublist (names_present_sublist slots)
    have hc := collect_ofList strict hfound hp
    rw [List.append_nil] at hc
    change (collect r.fields strict [] (Members.ofList _ _)).bind _ = _
    rw [hc]
    exact h.build _ fun e he => lookup_present hd he

end Record

namespace Variant

theorem spells_unit {variants : List (Variant α)} {name : String} {a : α}
    (h : select variants name = .ok ⟨name, .unit a⟩) : Spells (decode variants) (.ofString name) a := by
  refine ⟨rfl, nofun, ?_⟩
  change (select variants name).bind _ = _
  rw [h]
  rfl

theorem spells_content {variants : List (Variant α)} {v : Variant α} {name : String}
    (h : select variants name = .ok v) {d : Decoder α} (hv : v.content = .value d ∨ v.content = .record d)
    {n : Node} {a : α} (hd : Spells d n a) : Spells (decode variants) (.object [(name, n)]) a := by
  have hc : v.decodeContent n = .ok a := by
    rcases hv with hv | hv
    · rw [decodeContent, hv]
      exact congrArg (within (.name v.name)) hd.decoded
    · rw [decodeContent, hv]
      exact congrArg (within (.name v.name)) hd.decoded
  refine ⟨Members.legible_ofList ?_, nofun, ?_⟩
  · rintro m (_ | ⟨_, ⟨⟩⟩)
    exact hd.legible
  · change (select variants name).bind (fun v => (v.decodeContent n).bind _) = _
    rw [h]
    change (v.decodeContent n).bind _ = _
    rw [hc]
    rfl

end Variant

end RunControl.Json
