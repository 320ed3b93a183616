import Mathlib.Data.List.Forall2
import Mathlib.Logic.Relation
import RunControl.Proofs.Json.Nesting
import RunControl.Proofs.Json.Reordered

namespace RunControl.Json

def EntryReordered (p q : Option String × Node) : Prop :=
  p.1 = q.1 ∧ p.2.Reordered q.2

inductive Frame.Reordered : Frame → Frame → Prop where
  | firstItem : Frame.firstItem.Reordered .firstItem
  | item {ns ms : List Node} (h : List.Forall₂ Node.Reordered ns ms) : (Frame.item ns).Reordered (.item ms)
  | afterItem {ns ms : List Node} (h : List.Forall₂ Node.Reordered ns ms) :
      (Frame.afterItem ns).Reordered (.afterItem ms)
  | firstKey : Frame.firstKey.Reordered .firstKey
  | key {xs ys : List (Option String × Node)} (h : List.Forall₂ EntryReordered xs ys) :
      (Frame.key xs).Reordered (.key ys)
  | colon {xs ys : List (Option String × Node)} (h : List.Forall₂ EntryReordered xs ys) (k : Option String) :
      (Frame.colon xs k).Reordered (.colon ys k)
  | value {xs ys : List (Option String × Node)} (h : List.Forall₂ EntryReordered xs ys) (k : Option String) :
      (Frame.value xs k).Reordered (.value ys k)
  | afterValue {xs ys : List (Option String × Node)} (h : List.Forall₂ EntryReordered xs ys) :
      (Frame.afterValue xs).Reordered (.afterValue ys)

inductive State.Reordered : State → State → Prop where
  | reading (token : Token) {fs gs : List Frame} (h : List.Forall₂ Frame.Reordered fs gs) :
      (State.reading token fs).Reordered (.reading token gs)
  | finished {n m : Node} (h : n.Reordered m) (unread : List Char) :
      (State.finished n unread).Reordered (.finished m unread)

theorem Items.reordered_ofList (last : Items) {ns ms : List Node} (h : List.Forall₂ Node.Reordered ns ms) :
    (Items.ofList last ns).Reordered (Items.ofList last ms) := by
  induction h with
  | nil => exact .same last
  | cons head _ ih => exact .cons head ih

theorem Members.reordered_ofList (last : Members) {xs ys : List (Option String × Node)}
    (h : List.Forall₂ EntryReordered xs ys) :
    (Members.ofList last xs).Reordered (Members.ofList last ys) := by
  induction h with
  | nil => exact .same last
  | @cons p q _ _ head _ ih =>
      rw [ofList, ofList, ← head.1]
      exact .cons p.1 head.2 ih

theorem Frame.reordered_same (f : Frame) : f.Reordered f := by
  have hnodes (ns : List Node) : List.Forall₂ Node.Reordered ns ns := List.forall₂_same.mpr fun n _ => .same n
  have hentries (xs : List (Option String × Node)) : List.Forall₂ EntryReordered xs xs :=
    List.forall₂_same.mpr fun p _ => ⟨rfl, .same p.2⟩
  cases f with
  | firstItem => exact .firstItem
  | item ns => exact .item (hnodes ns)
  | afterItem ns => exact .afterItem (hnodes ns)
  | firstKey => exact .firstKey
  | key xs => exact .key (hentries xs)
  | colon xs k => exact .colon (hentries xs) k
  | value xs k => exact .value (hentries xs) k
  | afterValue xs => exact .afterValue (hentries xs)

theorem frames_reordered_same (fs : List Frame) : List.Forall₂ Frame.Reordered fs fs :=
  List.forall₂_same.mpr fun f _ => f.reordered_same

theorem Frame.reordered_plug {u v : Option Node} (hu : Option.Rel Node.Reordered u v) {f g : Frame}
    (hf : f.Reordered g) : (f.plug u).Reordered (g.plug v) := by
  have hlist : List.Forall₂ Node.Reordered u.toList v.toList := by
    cases hu with
    | none => exact .nil
    | some h => exact .cons h .nil
  have hvalue : (u.getD .broken).Reordered (v.getD .broken) := by
    cases hu with
    | none => exact .same _
    | some h => exact h
  cases hf with
  | firstItem => exact .seq (Items.reordered_ofList .broken hlist)
  | item h => exact .seq (Items.reordered_ofList .broken (List.rel_append (List.rel_reverse h) hlist))
  | afterItem h => exact .seq (Items.reordered_ofList .broken (List.rel_reverse h))
  | firstKey => exact .same _
  | key h => exact .map (Members.reordered_ofList .broken (List.rel_reverse h))
  | colon h k =>
      exact .map (Members.reordered_ofList .broken (List.rel_reverse (.cons ⟨rfl, .same _⟩ h)))
  | value h k => exact .map (Members.reordered_ofList .broken (List.rel_reverse (.cons ⟨rfl, hvalue⟩ h)))
  | afterValue h => exact .map (Members.reordered_ofList .broken (List.rel_reverse h))

theorem reordered_plugAll {u v : Option Node} (hu : Option.Rel Node.Reordered u v) {fs gs : List Frame}
    (h : List.Forall₂ Frame.Reordered fs gs) : (plugAll u fs).Reordered (plugAll v gs) := by
  induction h generalizing u v with
  | nil =>
      cases hu with
      | none => exact .same _
      | some h => exact h
  | cons head _ ih => exact ih (.some (Frame.reordered_plug hu head))

namespace State

theorem reordered_fail {u v : Option Node} (hu : Option.Rel Node.Reordered u v) {fs gs : List Frame}
    (h : List.Forall₂ Frame.Reordered fs gs) : (fail u fs).Reordered (fail v gs) :=
  .finished (reordered_plugAll hu h) []

theorem reordered_complete {n m : Node} (hn : n.Reordered m) {fs gs : List Frame}
    (h : List.Forall₂ Frame.Reordered fs gs) : (complete n fs).Reordered (complete m gs) := by
  have hfail := reordered_fail (.some hn) h
  cases h with
  | nil => exact .finished hn []
  | cons head tail =>
      cases head with
      | firstItem => exact .reading _ (.cons (.afterItem (.cons hn .nil)) tail)
      | item h => exact .reading _ (.cons (.afterItem (.cons hn h)) tail)
      | value h k => exact .reading _ (.cons (.afterValue (.cons ⟨rfl, hn⟩ h)) tail)
      | _ => exact hfail

theorem reordered_completeText (t : Option String) {fs gs : List Frame}
    (h : List.Forall₂ Frame.Reordered fs gs) : (completeText t fs).Reordered (completeText t gs) := by
  have hvalue := reordered_complete (.same (.str t)) h
  cases h with
  | nil => exact hvalue
  | cons head tail =>
      cases head with
      | firstKey => exact .reading _ (.cons (.colon .nil t) tail)
      | key h => exact .reading _ (.cons (.colon h t) tail)
      | _ => exact hvalue

theorem reordered_begin (c : Char) {fs gs : List Frame} (h : List.Forall₂ Frame.Reordered fs gs) :
    (begin c fs).Reordered (begin c gs) := by
  unfold begin
  split
  case h_2 => exact .reading _ (.cons .firstItem h)
  case h_3 => exact .reading _ (.cons .firstKey h)
  case h_9 =>
    split
    · exact .reading _ h
    · exact reordered_fail .none h
  all_goals exact .reading _ h

theorem reordered_punctuate (c : Char) {fs gs : List Frame} (h : List.Forall₂ Frame.Reordered fs gs) :
    (punctuate c fs).Reordered (punctuate c gs) := by
  have hbegin := reordered_begin c h
  have hfail := reordered_fail .none h
  cases hb : isBlank c with
  | true =>
      simp only [punctuate, hb, if_true]
      exact .reading _ h
  | false =>
      cases h with
      | nil =>
          simp only [punctuate, hb, Bool.false_eq_true, if_false]
          exact hbegin
      | cons head tail =>
          cases head with
          | firstItem =>
              simp only [punctuate, hb, Bool.false_eq_true, if_false]
              split
              · exact reordered_complete (.same _) tail
              · exact hbegin
          | item h =>
              simp only [punctuate, hb, Bool.false_eq_true, if_false]
              exact hbegin
          | afterItem h =>
              simp only [punctuate, hb, Bool.false_eq_true, if_false]
              split
              · exact .reading _ (.cons (.item h) tail)
              · split
                · exact reordered_complete (.seq (Items.reordered_ofList .closed (List.rel_reverse h))) tail
                · exact hfail
          | firstKey =>
              simp only [punctuate, hb, Bool.false_eq_true, if_false]
              split
              · exact reordered_complete (.same _) tail
              · split
                · exact hbegin
                · exact hfail
          | key h =>
              simp only [punctuate, hb, Bool.false_eq_true, if_false]
              split
              · exact hbegin
              · exact hfail
          | colon h k =>
              simp only [punctuate, hb, Bool.false_eq_true, if_false]
              split
              · exact .reading _ (.cons (.value h k) tail)
              · exact hfail
          | value h k =>
              simp only [punctuate, hb, Bool.false_eq_true, if_false]
              exact hbegin
          | afterValue h =>
              simp only [punctuate, hb, Bool.false_eq_true, if_false]
              split
              · exact .reading _ (.cons (.key h) tail)
              · split
                · exact reordered_complete (.map (Members.reordered_ofList .closed (List.rel_reverse h))) tail
                · exact hfail

theorem Reordered.resume {s t : State} (h : s.Reordered t) (c : Char) : (s.resume c).Reordered (t.resume c) := by
  cases h with
  | reading token h =>
      cases token with
      | between => exact reordered_punctuate c h
      | _ => exact .reading _ h
  | finished h unread => exact .finished h (unread ++ [c])

theorem reordered_step_reading (token : Token) {fs gs : List Frame} (h : List.Forall₂ Frame.Reordered fs gs)
    (c : Char) : (step (.reading token fs) c).Reordered (step (.reading token gs) c) := by
  have hbroken := reordered_fail (.some (.same .broken)) h
  match token with
  | .between => exact reordered_punctuate c h
  | .literal [] n => exact (reordered_complete (.same n) h).resume c
  | .literal [d] n =>
      simp only [step]
      split
      · exact reordered_complete (.same n) h
      · exact hbroken
  | .literal (d :: e :: ds) n =>
      simp only [step]
      split
      · exact .reading _ h
      · exact hbroken
  | .numeral p cs =>
      simp only [step]
      split
      · exact .reading _ h
      · split
        · exact (reordered_complete (.same _) h).resume c
        · exact hbroken
  | .string t =>
      simp only [step]
      split
      · exact reordered_completeText _ h
      · split
        · exact .reading _ h
        · split
          · exact hbroken
          · exact .reading _ h
  | .escape t =>
      simp only [step]
      split
      · exact .reading _ h
      · split
        · exact .reading _ h
        · exact hbroken
  | .unit t k n =>
      simp only [step]
      split
      · split
        · exact .reading _ h
        · exact .reading _ h
      · exact hbroken

theorem Reordered.step {s t : State} (h : s.Reordered t) (c : Char) : (s.step c).Reordered (t.step c) := by
  cases h with
  | reading token h => exact reordered_step_reading token h c
  | finished h unread => exact .finished h (unread ++ [c])

theorem Reordered.run {s t : State} (h : s.Reordered t) (cs : List Char) :
    (cs.foldl State.step s).Reordered (cs.foldl State.step t) := by
  induction cs generalizing s t with
  | nil => exact h
  | cons c cs ih => exact ih (h.step c)

theorem Reordered.soFar {s t : State} (h : s.Reordered t) : s.soFar.Reordered t.soFar := by
  cases h with
  | @reading token fs gs h =>
      have hword := reordered_plugAll (.some (.same .broken)) h
      cases token with
      | between => exact reordered_plugAll .none h
      | _ => exact hword
  | finished h unread => exact h

theorem Reordered.outcome {s t : State} (h : s.Reordered t) : s.outcome.1.Reordered t.outcome.1 := by
  have hend := (h.step ' ').soFar
  rw [← atEnd_eq_soFar, ← atEnd_eq_soFar] at hend
  cases h with
  | reading token h => exact hend
  | finished h unread => exact h

end State

theorem reordered_of_perm {xs ys : List (Option String × Node)} (h : xs.Perm ys)
    (hapart : xs.Pairwise fun p q => Apart p.1 q.1) :
    Relation.ReflTransGen Members.Reordered (Members.ofList .closed xs) (Members.ofList .closed ys) := by
  induction h with
  | nil => exact .refl
  | cons p _ ih =>
      exact (ih hapart.of_cons).lift (Members.cons p.1 p.2) fun _ _ hstep => .cons p.1 (.same p.2) hstep
  | swap p q xs =>
      have hqp : Apart q.1 p.1 := (List.pairwise_cons.mp hapart).1 p List.mem_cons_self
      exact .single (.swap hqp q.2 p.2 _)
  | trans hxy _ ih ih' =>
      -- that the names are apart has to be carried to the list in the middle
      have hsymm : ∀ {p q : Option String × Node}, Apart p.1 q.1 → Apart q.1 p.1 := fun h => h.symm
      exact (ih hapart).trans (ih' ((hxy.pairwise_iff hsymm).mp hapart))

structure Member where
  before : List Char
  name : List Char
  between : List Char
  value : List Char
  key : Option String
  before_blank : before.all isBlank = true
  between_blank : between.all isBlank = true
  named : read ('"' :: name ++ ['"']) = (.str key, [])
  whole : Whole value

def Member.text (m : Member) : List Char :=
  m.before ++ ('"' :: m.name ++ ['"']) ++ m.between ++ ':' :: m.value

def Member.entry (m : Member) : Option String × Node :=
  (m.key, (read m.value).1)

mutual

theorem Node.intact_of_legible (n : Node) (h : n.legible = true) : n.intact = true := by
  match n with
  | .null => rfl
  | .bool _ => rfl
  | .num _ => rfl
  | .str _ => rfl
  | .seq items => exact items.intact_of_legible h
  | .map members => exact members.intact_of_legible h
  | .broken => cases h

theorem Items.intact_of_legible (items : Items) (h : items.legible = true) : items.intact = true := by
  match items with
  | .closed => rfl
  | .broken => cases h
  | .cons n r =>
      obtain ⟨hn, hr⟩ := Bool.and_eq_true_iff.mp h
      rw [Items.intact, n.intact_of_legible hn, r.intact_of_legible hr]
      rfl

theorem Members.intact_of_legible (members : Members) (h : members.legible = true) : members.intact = true := by
  match members with
  | .closed => rfl
  | .broken => cases h
  | .cons k n r =>
      obtain ⟨hn, hr⟩ := Bool.and_eq_true_iff.mp h
      rw [Members.intact, n.intact_of_legible hn, r.intact_of_legible hr]
      rfl

end

theorem whole_render {n : Node} (h : n.legible = true) : Whole n.render := by
  constructor
  · rw [read_render h]
    exact n.intact_of_legible h
  · rw [read_render h]
    rfl

def Member.written (k : String) (n : Node) (h : n.legible = true) : Member where
  before := []
  name := k.toList.flatMap escapeChar
  between := []
  value := n.render
  key := some k
  before_blank := rfl
  between_blank := rfl
  named := @read_render (.str (some k)) rfl
  whole := whole_render h

def objectText (ms : List Member) : List Char :=
  '\x7b' :: [','].intercalate (ms.map Member.text) ++ ['\x7d']

def keySlot : List (Option String × Node) → Frame
  | [] => .firstKey
  | p :: ps => .key (p :: ps)

theorem completeText_keySlot (t : Option String) (acc : List (Option String × Node)) (gs : List Frame) :
    State.completeText t (keySlot acc :: gs) = .reading .between (.colon acc t :: gs) := by
  cases acc with
  | nil => rfl
  | cons p acc => rfl

theorem punctuate_keySlot (acc : List (Option String × Node)) (gs : List Frame) :
    State.punctuate '"' (keySlot acc :: gs) = .reading (.string .empty) (keySlot acc :: gs) := by
  cases acc with
  | nil => rfl
  | cons p acc => rfl

theorem run_name (m : Member) (acc : List (Option String × Node)) (gs : List Frame) :
    ('"' :: m.name ++ ['"']).foldl State.step (.reading .between (keySlot acc :: gs)) =
      .reading .between (.colon acc m.key :: gs) := by
  have hinside : State.Inside (keySlot acc :: gs) (.reading (.string .empty) [])
      (.reading (.string .empty) (keySlot acc :: gs)) := State.inside_word (.string .empty) [] trivial
  have hrun := hinside.run (m.name ++ ['"'])
  have hnamed : ((m.name ++ ['"']).foldl State.step (.reading (.string .empty) [])).outcome = (.str m.key, []) := by
    rw [← m.named, State.read_eq_outcome]
    rfl
  have hstart : ('"' :: m.name ++ ['"']).foldl State.step (.reading .between (keySlot acc :: gs)) =
      (m.name ++ ['"']).foldl State.step (.reading (.string .empty) (keySlot acc :: gs)) := by
    rw [List.cons_append, List.foldl_cons, ← punctuate_keySlot]
    rfl
  rw [hstart, ← completeText_keySlot]
  generalize (m.name ++ ['"']).foldl State.step (.reading (.string .empty) []) = s at hrun hnamed
  generalize (m.name ++ ['"']).foldl State.step (.reading (.string .empty) (keySlot acc :: gs)) = t at hrun ⊢
  cases hrun with
  | @underWay token fs htoken =>
      have hend := State.enclosed_atEnd htoken.plain fs
      obtain ⟨hn, -⟩ := Prod.mk.inj hnamed
      rw [hn] at hend
      cases hend
  | ended n unread =>
      obtain ⟨rfl, rfl⟩ := Prod.mk.inj hnamed
      rfl
  | cutOff unread hn =>
      obtain ⟨rfl, -⟩ := Prod.mk.inj hnamed
      cases hn

theorem ready_member (m : Member) (acc : List (Option String × Node)) (gs : List Frame) {c : Char} (hc : Ends c) :
    (m.text.foldl State.step (.reading .between (keySlot acc :: gs))).step c =
      State.punctuate c (.afterValue (m.entry :: acc) :: gs) := by
  have hvalue : takesValue (.value acc m.key :: gs) = true := rfl
  rw [Member.text, List.append_assoc, List.append_assoc, List.foldl_append, State.run_blanks m.before_blank,
    List.foldl_append, run_name, List.foldl_append, State.run_blanks m.between_blank]
  exact State.ready_of_whole hvalue m.whole c hc

theorem run_members {ms : List Member} (h : ms ≠ []) (acc : List (Option String × Node)) (gs : List Frame) :
    ([','].intercalate (ms.map Member.text) ++ ['\x7d']).foldl State.step (.reading .between (keySlot acc :: gs)) =
      State.complete (.map (Members.ofList .closed (acc.reverse ++ ms.map Member.entry))) gs := by
  induction ms generalizing acc with
  | nil => exact absurd rfl h
  | cons m ms ih =>
      cases ms with
      | nil =>
          have hclose := ready_member m acc gs (c := '\x7d') (.inr (.inr (.inl rfl)))
          rw [List.map_singleton, List.intercalate_singleton, List.foldl_append]
          rw [List.map_singleton, ← List.reverse_cons]
          exact hclose
      | cons m' ms =>
          have hcomma := ready_member m acc gs (c := ',') (.inl rfl)
          have hrest := ih (List.cons_ne_nil m' ms) (m.entry :: acc)
          rw [List.reverse_cons, List.append_assoc, List.singleton_append] at hrest
          rw [List.map_cons, List.map_cons, List.intercalate_cons_cons, ← List.map_cons, List.append_assoc,
            List.append_assoc, List.foldl_append, List.foldl_append]
          rw [List.foldl_cons, List.foldl_nil, hcomma]
          exact hrest

theorem run_objectText (ms : List Member) {gs : List Frame} (hg : takesValue gs = true) :
    (objectText ms).foldl State.step (.reading .between gs) =
      State.complete (.map (Members.ofList .closed (ms.map Member.entry))) gs := by
  have hopen : State.step (.reading .between gs) '\x7b' = .reading .between (.firstKey :: gs) :=
    punctuate_of_takesValue hg rfl (by decide)
  rw [objectText, List.cons_append, List.foldl_cons, hopen]
  cases ms with
  | nil => rfl
  | cons m ms => exact run_members (List.cons_ne_nil m ms) [] gs

def valueMayFollow (before : List Char) : Bool :=
  match before.foldl State.step (.reading .between []) with
  | .reading .between gs => takesValue gs
  | .reading _ _ => false
  | .finished _ _ => true

/-- That a text is another one with the members of one object in another order, where no two of them have the
same name. The blanks need not go along, and a member may be written in another way. -/
inductive Rearranged (text other : String) : Prop where
  | intro (before after : List Char) (ms ns : List Member) (due : valueMayFollow before = true)
      (apart : ms.Pairwise fun a b => Apart a.key b.key)
      (perm : (ms.map Member.entry).Perm (ns.map Member.entry))
      (text_eq : text.toList = before ++ objectText ms ++ after)
      (other_eq : other.toList = before ++ objectText ns ++ after)

theorem Rearranged.reordered {text other : String} (h : Rearranged text other) :
    Relation.ReflTransGen Node.Reordered (read text.toList).1 (read other.toList).1 := by
  obtain ⟨before, after, ms, ns, due, apart, perm, text_eq, other_eq⟩ := h
  rw [State.read_eq_outcome, State.read_eq_outcome, text_eq, other_eq]
  simp only [List.foldl_append]
  unfold valueMayFollow at due
  split at due
  · rename_i gs hbefore
    rw [hbefore, run_objectText ms due, run_objectText ns due]
    have hentries : (ms.map Member.entry).Pairwise fun p q => Apart p.1 q.1 := List.pairwise_map.mpr apart
    have hmembers := reordered_of_perm perm hentries
    refine hmembers.lift (fun xs => (after.foldl State.step (State.complete (.map xs) gs)).outcome.1) ?_
    intro xs ys hstep
    exact ((State.reordered_complete (.map hstep) (frames_reordered_same gs)).run after).outcome
  · cases due
  · -- the document was over before the object began
    rename_i n unread hbefore
    simp only [hbefore, State.foldl_step_finished]
    exact .refl

theorem Unordered.decode_reordered {α : Type} {d : Decoder α} (hd : Unordered d) {n m : Node}
    (h : Relation.ReflTransGen Node.Reordered n m) {a : α} (hn : d n = .ok a) : d m = .ok a := by
  induction h with
  | refl => exact hn
  | tail _ hstep ih => exact hd _ _ a hstep ih

def OrderFree {α : Type} (d : Decoder α) : Prop :=
  ∀ (text other : String) (a : α), decodeText d text = .ok a → Relation.ReflTransGen Rearranged text other →
    decodeText d other = .ok a

theorem Unordered.orderFree {α : Type} {d : Decoder α} (hd : Unordered d) : OrderFree d := by
  intro text other a hok h
  induction h with
  | refl => exact hok
  | tail _ hstep ih => exact hd.decode_reordered hstep.reordered ih

end RunControl.Json
