import RunControl.Proofs.Json.ReadBack
import RunControl.Proofs.Json.Extent

namespace RunControl.Json

mutual

/-- That a document is the beginning of another one: the same up to the places where it breaks off. -/
inductive Node.Begins : Node → Node → Prop where
  | same (n : Node) : n.Begins n
  | broken (n : Node) : Node.broken.Begins n
  | seq {xs ys : Items} (h : xs.Begins ys) : (Node.seq xs).Begins (.seq ys)
  | map {xs ys : Members} (h : xs.Begins ys) : (Node.map xs).Begins (.map ys)

inductive Items.Begins : Items → Items → Prop where
  | same (xs : Items) : xs.Begins xs
  | broken (xs : Items) : Items.broken.Begins xs
  | cons {n m : Node} {xs ys : Items} (head : n.Begins m) (tail : xs.Begins ys) :
      (Items.cons n xs).Begins (.cons m ys)

inductive Members.Begins : Members → Members → Prop where
  | same (xs : Members) : xs.Begins xs
  | broken (xs : Members) : Members.broken.Begins xs
  | cons {n m : Node} {xs ys : Members} (k : Option String) (head : n.Begins m) (tail : xs.Begins ys) :
      (Members.cons k n xs).Begins (.cons k m ys)

end

theorem Node.Begins.of_eq {n m : Node} (h : n = m) : n.Begins m := by
  rw [h]
  exact .same m

theorem Items.Begins.exists_cons {n : Node} {xs ys : Items} (h : (Items.cons n xs).Begins ys) :
    ∃ m zs, ys = .cons m zs ∧ n.Begins m ∧ xs.Begins zs := by
  cases h with
  | same => exact ⟨n, xs, rfl, .same n, .same xs⟩
  | cons head tail => exact ⟨_, _, rfl, head, tail⟩

theorem Members.Begins.exists_cons {k : Option String} {n : Node} {xs ys : Members}
    (h : (Members.cons k n xs).Begins ys) : ∃ m zs, ys = .cons k m zs ∧ n.Begins m ∧ xs.Begins zs := by
  cases h with
  | same => exact ⟨n, xs, rfl, .same n, .same xs⟩
  | cons _ head tail => exact ⟨_, _, rfl, head, tail⟩

mutual

theorem Node.Begins.trans {a b c : Node} (hab : a.Begins b) (hbc : b.Begins c) : a.Begins c := by
  match hab, hbc with
  | .same _, hbc => exact hbc
  | .broken _, _ => exact .broken c
  | .seq hab, .same _ => exact .seq hab
  | .seq hab, .seq hbc => exact .seq (hab.trans hbc)
  | .map hab, .same _ => exact .map hab
  | .map hab, .map hbc => exact .map (hab.trans hbc)

theorem Items.Begins.trans {a b c : Items} (hab : a.Begins b) (hbc : b.Begins c) : a.Begins c := by
  match hab, hbc with
  | .same _, hbc => exact hbc
  | .broken _, _ => exact .broken c
  | .cons hn hr, .same _ => exact .cons hn hr
  | .cons hn hr, .cons hm hs => exact .cons (hn.trans hm) (hr.trans hs)

theorem Members.Begins.trans {a b c : Members} (hab : a.Begins b) (hbc : b.Begins c) : a.Begins c := by
  match hab, hbc with
  | .same _, hbc => exact hbc
  | .broken _, _ => exact .broken c
  | .cons k hn hr, .same _ => exact .cons k hn hr
  | .cons k hn hr, .cons _ hm hs => exact .cons k (hn.trans hm) (hr.trans hs)

end

mutual

theorem Node.Begins.eq_of_intact {n m : Node} (h : n.Begins m) (hn : n.intact = true) : m = n := by
  match h with
  | .same _ => rfl
  | .broken _ => cases hn
  | .seq hxs => rw [hxs.eq_of_intact hn]
  | .map hxs => rw [hxs.eq_of_intact hn]

theorem Items.Begins.eq_of_intact {xs ys : Items} (h : xs.Begins ys) (hxs : xs.intact = true) : ys = xs := by
  match h with
  | .same _ => rfl
  | .broken _ => cases hxs
  | .cons hn hr =>
      obtain ⟨hhead, htail⟩ := Bool.and_eq_true_iff.mp hxs
      rw [hn.eq_of_intact hhead, hr.eq_of_intact htail]

theorem Members.Begins.eq_of_intact {xs ys : Members} (h : xs.Begins ys) (hxs : xs.intact = true) : ys = xs := by
  match h with
  | .same _ => rfl
  | .broken _ => cases hxs
  | .cons k hn hr =>
      obtain ⟨hhead, htail⟩ := Bool.and_eq_true_iff.mp hxs
      rw [hn.eq_of_intact hhead, hr.eq_of_intact htail]

end

theorem Items.begins_ofList {xs ys : Items} (h : xs.Begins ys) (ns : List Node) :
    (Items.ofList xs ns).Begins (Items.ofList ys ns) := by
  induction ns with
  | nil => exact h
  | cons n ns ih => exact .cons (.same n) ih

theorem Members.begins_ofList {xs ys : Members} (h : xs.Begins ys) (ms : List (Option String × Node)) :
    (Members.ofList xs ms).Begins (Members.ofList ys ms) := by
  induction ms with
  | nil => exact h
  | cons m ms ih => exact .cons m.1 (.same m.2) ih

theorem Items.broken_begins_ofList (last : Items) (ns more : List Node) :
    (Items.ofList .broken ns).Begins (Items.ofList last (ns ++ more)) := by
  rw [ofList_append]
  exact begins_ofList (.broken _) ns

theorem Members.broken_begins_ofList (last : Members) (ms more : List (Option String × Node)) :
    (Members.ofList .broken ms).Begins (Members.ofList last (ms ++ more)) := by
  rw [ofList_append]
  exact begins_ofList (.broken _) ms

inductive UnderWay : Option Node → Option Node → Prop where
  | none (under : Option Node) : UnderWay none under
  | some {n m : Node} (h : n.Begins m) : UnderWay (some n) (some m)

theorem Frame.begins_plug {u v : Option Node} (h : UnderWay u v) (f : Frame) : (f.plug u).Begins (f.plug v) := by
  cases h with
  | none v =>
      cases f with
      | firstItem => exact .seq (.broken _)
      | item items =>
          simp only [plug, Option.toList_none, List.append_nil]
          exact .seq (Items.broken_begins_ofList .broken _ _)
      | value members k =>
          simp only [plug, List.reverse_cons, Members.ofList_append]
          exact .map (Members.begins_ofList (.cons k (.broken _) (.same _)) _)
      | _ => exact .same _
  | some h =>
      cases f with
      | firstItem => exact .seq (.cons h (.same _))
      | item items =>
          simp only [plug, Items.ofList_append]
          exact .seq (Items.begins_ofList (.cons h (.same _)) _)
      | value members k =>
          simp only [plug, List.reverse_cons, Members.ofList_append]
          exact .map (Members.begins_ofList (.cons k h (.same _)) _)
      | _ => exact .same _

theorem begins_plugAll {u v : Option Node} (h : UnderWay u v) (fs : List Frame) :
    (plugAll u fs).Begins (plugAll v fs) := by
  induction fs generalizing u v with
  | nil =>
      cases h with
      | none => exact .broken _
      | some h => exact h
  | cons f fs ih => exact ih (.some (f.begins_plug h))

theorem plugAll_cons (under : Option Node) (f : Frame) (fs : List Frame) :
    plugAll under (f :: fs) = plugAll (some (f.plug under)) fs :=
  rfl

theorem plugAll_append (n : Node) (fs gs : List Frame) :
    plugAll (some n) (fs ++ gs) = plugAll (some (plugAll (some n) fs)) gs := by
  induction fs generalizing n with
  | nil => rfl
  | cons f fs ih => exact ih (f.plug (some n))

namespace State

def soFar : State → Node
  | .reading .between fs => plugAll none fs
  | .reading _ fs => plugAll (some .broken) fs
  | .finished n _ => n

theorem soFar_complete (n : Node) (fs : List Frame) : (complete n fs).soFar = plugAll (some n) fs := by
  cases fs with
  | nil => rfl
  | cons f fs =>
      cases f with
      | item items =>
          rw [plugAll_cons, Frame.plug, Option.toList_some, ← List.reverse_cons]
          rfl
      | _ => rfl

theorem begins_soFar_begin (c : Char) (fs : List Frame) : (plugAll none fs).Begins (begin c fs).soFar := by
  have hword : (plugAll none fs).Begins (plugAll (some .broken) fs) := begins_plugAll (.none _) fs
  unfold begin
  split
  case h_2 => exact begins_plugAll (.none _) fs
  case h_3 => exact begins_plugAll (.none _) fs
  case h_9 =>
    split
    · exact hword
    · exact .same _
  all_goals exact hword

theorem begins_soFar_complete {n m : Node} (h : n.Begins m) (fs : List Frame) :
    (plugAll (some n) fs).Begins (complete m fs).soFar := by
  rw [soFar_complete]
  exact begins_plugAll (.some h) fs

theorem begins_soFar_punctuate (c : Char) (fs : List Frame) :
    (plugAll none fs).Begins (punctuate c fs).soFar := by
  unfold punctuate
  split
  · exact .same _
  · split
    case h_1 gs =>
      split
      · exact begins_soFar_complete (.seq (.broken _)) gs
      · exact begins_soFar_begin c _
    case h_2 items gs =>
      split
      · rw [soFar, plugAll_cons, plugAll_cons, Frame.plug, Frame.plug, Option.toList_none, List.append_nil]
        exact .same _
      · split
        · exact begins_soFar_complete (.seq (Items.begins_ofList (.broken _) _)) gs
        · exact .same _
    case h_3 gs =>
      split
      · exact begins_soFar_complete (.map (.broken _)) gs
      · split
        · exact begins_soFar_begin c _
        · exact .same _
    case h_4 =>
      split
      · exact begins_soFar_begin c _
      · exact .same _
    case h_5 =>
      split
      · exact .same _
      · exact .same _
    case h_6 members gs =>
      split
      · exact .same _
      · split
        · exact begins_soFar_complete (.map (Members.begins_ofList (.broken _) _)) gs
        · exact .same _
    case h_7 => exact begins_soFar_begin c _

theorem begins_soFar_completeText {n : Node} {t : Option String} (h : n.Begins (.str t)) (fs : List Frame) :
    (plugAll (some n) fs).Begins (completeText t fs).soFar := by
  unfold completeText
  split
  · exact begins_plugAll (.some (.map (.broken _))) _
  · rename_i members gs
    refine begins_plugAll (.some (.map ?_)) gs
    rw [List.reverse_cons]
    exact Members.broken_begins_ofList .broken _ _
  · exact begins_soFar_complete h fs

theorem begins_soFar_resume_complete (n : Node) (fs : List Frame) (c : Char) :
    (plugAll (some n) fs).Begins ((complete n fs).resume c).soFar := by
  rw [← soFar_complete]
  rcases complete_cases n fs with hs | ⟨gs, hs⟩ | ⟨m, -, hs⟩
  · rw [hs]
    exact .same _
  · rw [hs]
    exact begins_soFar_punctuate c gs
  · rw [hs]
    exact .same _

theorem begins_soFar_step (s : State) (c : Char) : s.soFar.Begins (s.step c).soFar := by
  match s with
  | .finished n unread => exact .same n
  | .reading .between fs => exact begins_soFar_punctuate c fs
  | .reading (.literal [] n) fs =>
      exact (begins_plugAll (.some (.broken n)) fs).trans (begins_soFar_resume_complete n fs c)
  | .reading (.literal [d] n) fs =>
      simp only [step]
      split
      · exact begins_soFar_complete (.broken n) fs
      · exact .same _
  | .reading (.literal (d :: e :: ds) n) fs =>
      simp only [step]
      split
      · exact .same _
      · exact .same _
  | .reading (.numeral p cs) fs =>
      simp only [step]
      split
      · exact .same _
      · split
        · exact (begins_plugAll (.some (.broken _)) fs).trans (begins_soFar_resume_complete _ fs c)
        · exact .same _
  | .reading (.string t) fs =>
      simp only [step]
      split
      · exact begins_soFar_completeText (.broken _) fs
      · split
        · exact .same _
        · split
          · exact .same _
          · exact .same _
  | .reading (.escape t) fs =>
      simp only [step]
      split
      · exact .same _
      · split
        · exact .same _
        · exact .same _
  | .reading (.unit t k n) fs =>
      simp only [step]
      split
      · split
        · exact .same _
        · exact .same _
      · exact .same _

theorem begins_soFar_run (cs : List Char) (s : State) : s.soFar.Begins (cs.foldl step s).soFar := by
  induction cs generalizing s with
  | nil => exact .same _
  | cons c cs ih => exact (begins_soFar_step s c).trans (ih (s.step c))

theorem atEnd_eq_soFar (s : State) : s.atEnd = (s.step ' ').soFar := by
  unfold atEnd
  cases s.step ' ' with
  | finished n unread => rfl
  | reading token fs => cases token <;> rfl

theorem soFar_begins_outcome (s : State) : s.soFar.Begins s.outcome.1 := by
  cases s with
  | finished n unread => exact .same n
  | reading token fs =>
      change (soFar (.reading token fs)).Begins (atEnd (.reading token fs))
      rw [atEnd_eq_soFar]
      exact begins_soFar_step _ ' '

theorem soFar_begins_read (cs more : List Char) :
    (cs.foldl step (.reading .between [])).soFar.Begins (read (cs ++ more)).1 := by
  rw [read, readFrom_eq, List.foldl_append]
  exact (begins_soFar_run more _).trans (soFar_begins_outcome _)

end State

end RunControl.Json
