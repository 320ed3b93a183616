import RunControl.Proofs.Json.Growing
import RunControl.Proofs.Json.Stability

namespace RunControl.Json

variable {α β : Type}

/-- That what a decoder answers stays when the document goes on, unless the answer is that it breaks off. -/
structure Settled (d : Decoder α) : Prop where
  thorough : Thorough d
  broken : d .broken = .error .grammar
  stands : ∀ {n m : Node}, n.Begins m → d n = .error .grammar ∨ d m = d n

theorem Settled.eq_of_data {d : Decoder α} (hd : Settled d) {n m : Node} (h : n.Begins m) {path : Path}
    {reason : Reason} (hn : d n = .error (.data path reason)) : d m = .error (.data path reason) := by
  rcases hd.stands h with hgrammar | hsame
  · rw [hgrammar] at hn
    cases hn
  · rw [hsame, hn]

theorem Settled.eq_of_ok {d : Decoder α} (hd : Settled d) {n m : Node} (h : n.Begins m) {a : α}
    (hn : d n = .ok a) : m = n :=
  h.eq_of_intact (hd.thorough n a hn)

theorem settled_of_flat {d : Decoder α} (hd : Thorough d) (hbroken : d .broken = .error .grammar)
    (hseq : ∀ xs ys, d (.seq xs) = d (.seq ys)) (hmap : ∀ xs ys, d (.map xs) = d (.map ys)) : Settled d := by
  refine ⟨hd, hbroken, fun {n m} h => ?_⟩
  cases h with
  | same => exact .inr rfl
  | broken => exact .inl hbroken
  | @seq xs ys => exact .inr (hseq ys xs)
  | @map xs ys => exact .inr (hmap ys xs)

theorem settled_natural (bound : Nat) (expected : String) : Settled (.natural bound expected) :=
  settled_of_flat (thorough_natural bound expected) rfl (fun _ _ => rfl) fun _ _ => rfl

theorem settled_boolean : Settled .boolean :=
  settled_of_flat thorough_boolean rfl (fun _ _ => rfl) fun _ _ => rfl

theorem settled_string : Settled .string :=
  settled_of_flat thorough_string rfl (fun _ _ => rfl) fun _ _ => rfl

theorem Settled.map {d : Decoder α} (hd : Settled d) (f : α → β) : Settled fun n => (d n).map f := by
  refine ⟨hd.thorough.map f, by rw [hd.broken]; rfl, fun h => ?_⟩
  refine (hd.stands h).imp (fun hgrammar => ?_) fun hsame => by rw [hsame]
  rw [hgrammar]
  rfl

theorem settled_word32 : Settled .word32 :=
  (settled_natural _ _).map UInt32.ofNat

theorem Settled.nullable {d : Decoder α} (hd : Settled d) : Settled (.nullable d) := by
  refine ⟨hd.thorough.nullable, (hd.map some).broken, fun {n m} h => ?_⟩
  cases h with
  | same => exact .inr rfl
  | broken => exact .inl (hd.map some).broken
  | seq h => exact (hd.map some).stands (.seq h)
  | map h => exact (hd.map some).stands (.map h)

theorem Settled.within {d : Decoder α} (hd : Settled d) (seg : Segment) :
    Settled fun n => Json.within seg (d n) := by
  refine ⟨fun n a hn => hd.thorough n a (within_eq_ok_iff.mp hn), by rw [hd.broken]; rfl, fun h => ?_⟩
  refine (hd.stands h).imp (fun hgrammar => ?_) fun hsame => by rw [hsame]
  rw [hgrammar]
  rfl

theorem itemsFrom_begins {d : Decoder α} (hd : Settled d) {i : Nat} {xs ys : Items} (h : xs.Begins ys) :
    Decoder.itemsFrom d i xs = .error .grammar ∨ Decoder.itemsFrom d i ys = Decoder.itemsFrom d i xs := by
  fun_induction Decoder.itemsFrom d i xs generalizing ys with
  | case1 i =>
      cases h
      exact .inr rfl
  | case2 i => exact .inl rfl
  | case3 i n r e hn =>
      obtain ⟨m, s, rfl, head, -⟩ := h.exists_cons
      rcases (hd.within (.index i)).stands head with hgrammar | hsame
      · cases hn.symm.trans hgrammar
        exact .inl rfl
      · exact .inr (by simp only [Decoder.itemsFrom, hsame, hn])
  | case4 i n r a hn e hr ih =>
      -- the item was accepted, so it is there as a whole and the longer list has the same one
      obtain ⟨m, s, rfl, head, tail⟩ := h.exists_cons
      rw [(hd.within (.index i)).eq_of_ok head hn]
      rcases ih tail with hgrammar | hsame
      · cases hr.symm.trans hgrammar
        exact .inl rfl
      · exact .inr (by simp only [Decoder.itemsFrom, hn, hsame, hr])
  | case5 i n r a hn as hr ih =>
      obtain ⟨m, s, rfl, head, tail⟩ := h.exists_cons
      rw [(hd.within (.index i)).eq_of_ok head hn]
      rcases ih tail with hgrammar | hsame
      · cases hr.symm.trans hgrammar
      · exact .inr (by simp only [Decoder.itemsFrom, hn, hsame, hr])

theorem Settled.list {d : Decoder α} (hd : Settled d) : Settled (.list d) := by
  refine ⟨hd.thorough.list.thorough, rfl, fun {n m} h => ?_⟩
  cases h with
  | same => exact .inr rfl
  | broken => exact .inl rfl
  | seq h => exact itemsFrom_begins hd h
  | map => exact .inr rfl

namespace Record

def Settled (r : Record α) : Prop :=
  ∀ f ∈ r.fields, Json.Settled f.check

theorem Settled.thorough {r : Record α} (h : r.Settled) : r.Thorough :=
  fun f hf n hn => (h f hf).thorough n () hn

theorem settled_required (name : String) {d : Decoder α} (hd : Json.Settled d) : (required name d).Settled := by
  intro f hf
  obtain rfl := List.mem_singleton.mp hf
  exact hd.map fun _ => ()

theorem settled_optional (name : String) {d : Decoder α} (hd : Json.Settled d) (default : α) :
    (optional name d default).Settled := by
  intro f hf
  obtain rfl := List.mem_singleton.mp hf
  exact hd.map fun _ => ()

theorem Settled.fmap {r : Record α} (h : r.Settled) (f : α → β) : (f <$> r).Settled :=
  h

theorem Settled.seq {q : Record (α → β)} {r : Record α} (hq : q.Settled) (hr : r.Settled) :
    (q <*> r).Settled := by
  intro f hf
  rcases List.mem_append.mp hf with hf | hf
  · exact hq f hf
  · exact hr f hf

theorem collect_begins {fields : List Field} (h : ∀ f ∈ fields, Json.Settled f.check) {strict : Bool}
    {found : List (String × Node)} {xs ys : Members} (hxs : xs.Begins ys) :
    collect fields strict found xs = .error .grammar ∨
      collect fields strict found ys = collect fields strict found xs := by
  fun_induction collect fields strict found xs generalizing ys with
  | case1 found =>
      cases hxs
      exact .inr rfl
  | case2 found k n r f hfind hold =>
      obtain ⟨m, s, rfl, -, -⟩ := hxs.exists_cons
      exact .inr (by simp only [collect, hfind, if_pos hold])
  | case3 found k n r f hfind hnew e hcheck =>
      obtain ⟨m, s, rfl, head, -⟩ := hxs.exists_cons
      rcases ((h f (List.mem_of_find?_eq_some hfind)).within (.name k)).stands head with hgrammar | hsame
      · cases hcheck.symm.trans hgrammar
        exact .inl rfl
      · exact .inr (by simp only [collect, hfind, if_neg hnew, hsame, hcheck])
  | case4 found k n r f hfind hnew u hcheck ih =>
      obtain ⟨m, s, rfl, head, tail⟩ := hxs.exists_cons
      rw [((h f (List.mem_of_find?_eq_some hfind)).within (.name k)).eq_of_ok head hcheck]
      refine (ih tail).imp_right fun hsame => ?_
      simp only [collect, hfind, if_neg hnew, hcheck, hsame]
  | case5 found k n r hfind hstrict =>
      obtain ⟨m, s, rfl, -, -⟩ := hxs.exists_cons
      exact .inr (by simp only [collect, hfind, if_pos hstrict])
  | case6 found k n r hfind hstrict hn ih =>
      obtain ⟨m, s, rfl, head, tail⟩ := hxs.exists_cons
      rw [head.eq_of_intact hn]
      refine (ih tail).imp_right fun hsame => ?_
      simp only [collect, hfind, if_neg hstrict, if_pos hn, hsame]
  | case7 => exact .inl rfl
  | case8 => exact .inl rfl

inductive Placed (i : Nat) (found : List (String × Node)) (fields : List Field) (xs ys : Items) : Prop where
  | grammar (h : place i found fields xs = .error .grammar)
  | fault (h : place i found fields ys = place i found fields xs) {e : Fault}
      (hxs : place i found fields xs = .error e)
  | rest {r : List (String × Node)} {us vs : Items} (hxs : place i found fields xs = .ok (r, us))
      (hys : place i found fields ys = .ok (r, vs)) (h : us.Begins vs)

theorem placed_of_begins {fields : List Field} (h : ∀ f ∈ fields, Json.Settled f.check) {i : Nat}
    {found : List (String × Node)} {xs ys : Items} (hxs : xs.Begins ys) : Placed i found fields xs ys := by
  fun_induction place i found fields xs generalizing ys with
  | case1 i found xs => exact .rest rfl rfl hxs
  | case2 i found f fields =>
      cases hxs
      exact .rest rfl rfl (.same _)
  | case3 i found f fields => exact .grammar rfl
  | case4 i found f fields n r e hcheck =>
      obtain ⟨m, s, rfl, head, -⟩ := hxs.exists_cons
      have hxs : place i found (f :: fields) (.cons n r) = .error e := by simp only [place, hcheck]
      rcases ((h f List.mem_cons_self).within (.index i)).stands head with hgrammar | hsame
      · cases hcheck.symm.trans hgrammar
        exact .grammar hxs
      · exact .fault (by simp only [place, hsame, hcheck]) hxs
  | case5 i found f fields n r u hcheck ih =>
      obtain ⟨m, s, rfl, head, tail⟩ := hxs.exists_cons
      rw [((h f List.mem_cons_self).within (.index i)).eq_of_ok head hcheck]
      have hplace (items : Items) : place i found (f :: fields) (.cons n items) =
          place (i + 1) ((f.name, n) :: found) fields items := by
        simp only [place, hcheck]
      cases ih (fun g hg => h g (List.mem_cons_of_mem f hg)) tail with
      | grammar h => exact .grammar ((hplace r).trans h)
      | fault h hr => exact .fault (by rw [hplace, hplace, h]) ((hplace r).trans hr)
      | rest hr hs h => exact .rest ((hplace r).trans hr) ((hplace s).trans hs) h

theorem decode_map_begins {r : Record α} (h : r.Settled) (expected : String) (strict : Bool) {xs ys : Members}
    (hxs : xs.Begins ys) :
    r.decode expected strict (.map xs) = .error .grammar ∨
      r.decode expected strict (.map ys) = r.decode expected strict (.map xs) := by
  have hcollect : collect r.fields strict [] xs = .error .grammar ∨
      collect r.fields strict [] ys = collect r.fields strict [] xs := collect_begins h hxs
  refine hcollect.imp (fun hgrammar => ?_) fun hsame => ?_
  · rw [decode, hgrammar]
    rfl
  · rw [decode, decode, hsame]

theorem decode_seq_begins {r : Record α} (h : r.Settled) (expected : String) (strict : Bool) {xs ys : Items}
    (hxs : xs.Begins ys) :
    r.decode expected strict (.seq xs) = .error .grammar ∨
      r.decode expected strict (.seq ys) = r.decode expected strict (.seq xs) := by
  have hplaced : Placed 0 [] r.fields xs ys := placed_of_begins h hxs
  cases hplaced with
  | grammar hgrammar =>
      rw [decode, hgrammar]
      exact .inl rfl
  | fault hsame hfault =>
      rw [decode, decode, hsame, hfault]
      exact .inr rfl
  | @rest found us vs hus hvs hrest =>
      rw [decode, decode, hus, hvs]
      change (r.build _).bind _ = _ ∨ (r.build _).bind _ = (r.build _).bind _
      cases r.build ⟨expected, r.fields.map Field.name, true, found⟩ with
      | error e => exact .inr rfl
      | ok a =>
          cases us with
          | closed =>
              cases hrest
              exact .inr rfl
          | broken => exact .inl rfl
          | cons n us => exact .inl rfl

theorem Settled.decode {r : Record α} (h : r.Settled) (expected : String) (strict : Bool) :
    Json.Settled (r.decode expected strict) := by
  refine ⟨(h.thorough.decode expected strict).thorough, rfl, fun {n m} hn => ?_⟩
  cases hn with
  | same => exact .inr rfl
  | broken => exact .inl rfl
  | seq hxs => exact decode_seq_begins h expected strict hxs
  | map hxs => exact decode_map_begins h expected strict hxs

end Record

end RunControl.Json
