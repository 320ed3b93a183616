import RunControl.Proofs.Json.Growing

namespace RunControl.Json

structure Whole (cs : List Char) : Prop where
  intact : (read cs).1.intact = true
  blanks : (read cs).2.all isBlank = true

def Token.Proper : Token → Prop
  | .literal due n => n.enclosed = false ∧ due ≠ [] ∧ ' ' ∉ due
  | _ => True

def Token.Word (token : Token) : Prop :=
  match token with
  | .between => False
  | token => token.Proper

theorem Token.Word.proper {token : Token} (h : token.Word) : token.Proper := by
  cases token with
  | between => trivial
  | _ => exact h

theorem Token.Word.ne_between {token : Token} (h : token.Word) : token ≠ .between := by
  rintro rfl
  exact h

theorem Token.Proper.plain {token : Token} (h : token.Proper) : token.Plain := by
  cases token with
  | literal due n => exact h.1
  | _ => trivial

namespace State

def settle (n : Node) (gs : List Frame) : State :=
  match n with
  | .str t => completeText t gs
  | n => complete n gs

theorem settle_of_takesValue {gs : List Frame} (hg : takesValue gs = true) (n : Node) :
    settle n gs = complete n gs := by
  cases n with
  | str t => exact completeText_of_takesValue hg t
  | _ => rfl

theorem settle_of_not_enclosed {n : Node} (h : n.enclosed = false) (gs : List Frame) :
    settle n gs = complete n gs := by
  cases n with
  | str t => cases h
  | _ => rfl

/-- A state of reading a text alone, and the state of reading it inside the frames `gs`. -/
inductive Inside (gs : List Frame) : State → State → Prop where
  | underWay {token : Token} {fs : List Frame} (htoken : token.Proper)
      (hvalue : token = .between → fs = [] → takesValue gs = true) :
      Inside gs (.reading token fs) (.reading token (fs ++ gs))
  | ended (n : Node) (unread : List Char) : Inside gs (.finished n unread) (unread.foldl step (settle n gs))
  | cutOff {n : Node} (unread : List Char) {s : State} (hn : n.intact = false)
      (hs : n = .broken ∨ (plugAll (some n) gs).Begins s.soFar) : Inside gs (.finished n unread) s

variable {gs : List Frame}

theorem inside_between {fs : List Frame} (h : fs = [] → takesValue gs = true) :
    Inside gs (.reading .between fs) (.reading .between (fs ++ gs)) :=
  .underWay trivial fun _ => h

theorem inside_opened (f : Frame) (fs : List Frame) :
    Inside gs (.reading .between (f :: fs)) (.reading .between (f :: fs ++ gs)) :=
  inside_between fun h => absurd h (List.cons_ne_nil f fs)

theorem inside_word (token : Token) (fs : List Frame) (h : token.Word) :
    Inside gs (.reading token fs) (.reading token (fs ++ gs)) :=
  .underWay h.proper fun heq => absurd heq h.ne_between

theorem inside_fail {under : Option Node} {fs : List Frame} (h : (plugAll under fs).intact = false) :
    Inside gs (fail under fs) (fail under (fs ++ gs)) := by
  refine .cutOff [] h ?_
  cases fs with
  | nil =>
      cases under with
      | none => exact .inl rfl
      | some n => exact .inr (.same _)
  | cons f fs =>
      rw [plugAll_cons, ← plugAll_append]
      exact .inr (.same _)

theorem inside_fail_none (fs : List Frame) : Inside gs (fail none fs) (fail none (fs ++ gs)) :=
  inside_fail (intact_plugAll_none fs)

theorem inside_fail_broken (fs : List Frame) :
    Inside gs (fail (some .broken) fs) (fail (some .broken) (fs ++ gs)) :=
  inside_fail (intact_plugAll_broken fs)

theorem inside_complete_cons (n : Node) (f : Frame) (fs : List Frame) :
    Inside gs (complete n (f :: fs)) (complete n (f :: fs ++ gs)) := by
  cases f with
  | firstItem => exact inside_opened _ fs
  | item items => exact inside_opened _ fs
  | value members k => exact inside_opened _ fs
  | _ => exact inside_fail (intact_plugAll_cons _ _ fs)

theorem inside_complete {n : Node} (h : settle n gs = complete n gs) (fs : List Frame) :
    Inside gs (complete n fs) (complete n (fs ++ gs)) := by
  cases fs with
  | nil =>
      rw [List.nil_append, ← h]
      exact .ended n []
  | cons f fs => exact inside_complete_cons n f fs

theorem inside_complete_of_not_enclosed {n : Node} (h : n.enclosed = false) (fs : List Frame) :
    Inside gs (complete n fs) (complete n (fs ++ gs)) :=
  inside_complete (settle_of_not_enclosed h gs) fs

theorem inside_completeText (t : Option String) (fs : List Frame) :
    Inside gs (completeText t fs) (completeText t (fs ++ gs)) := by
  cases fs with
  | nil => exact .ended (.str t) []
  | cons f fs =>
      have hvalue : Inside gs (complete (.str t) (f :: fs)) (complete (.str t) (f :: fs ++ gs)) :=
        inside_complete_cons (.str t) f fs
      cases f with
      | firstKey => exact inside_opened _ fs
      | key members => exact inside_opened _ fs
      | _ => exact hvalue

theorem inside_begin (c : Char) (fs : List Frame) : Inside gs (begin c fs) (begin c (fs ++ gs)) := by
  unfold begin
  split
  case h_1 => exact inside_word (.string .empty) fs trivial
  case h_2 => exact inside_opened .firstItem fs
  case h_3 => exact inside_opened .firstKey fs
  case h_4 => exact inside_word (.literal ['u', 'l', 'l'] .null) fs ⟨rfl, by decide, by decide⟩
  case h_5 => exact inside_word (.literal ['r', 'u', 'e'] (.bool true)) fs ⟨rfl, by decide, by decide⟩
  case h_6 =>
    exact inside_word (.literal ['a', 'l', 's', 'e'] (.bool false)) fs ⟨rfl, by decide, by decide⟩
  case h_7 => exact inside_word (.numeral .minus ['-']) fs trivial
  case h_8 => exact inside_word (.numeral .zero ['0']) fs trivial
  case h_9 =>
    split
    · exact inside_word (.numeral .whole [_]) fs trivial
    · exact inside_fail_none fs

theorem inside_punctuate (c : Char) {fs : List Frame} (h : fs = [] → takesValue gs = true) :
    Inside gs (punctuate c fs) (punctuate c (fs ++ gs)) := by
  cases hb : isBlank c with
  | true =>
      simp only [punctuate, hb, if_true]
      exact inside_between h
  | false =>
      cases fs with
      | nil =>
          by_cases hc : c = ']'
          · -- the bracket may close a list among the frames, but alone it has nothing to close
            subst hc
            exact .cutOff [] rfl (.inl rfl)
          · rw [List.nil_append, punctuate_of_takesValue (h rfl) hb hc, punctuate_of_takesValue rfl hb hc]
            exact inside_begin c []
      | cons f fs =>
          simp only [punctuate, hb, Bool.false_eq_true, if_false, List.cons_append]
          cases f with
          | firstItem =>
              dsimp only
              split
              · exact inside_complete rfl fs
              · exact inside_begin c _
          | item items => exact inside_begin c _
          | afterItem items =>
              dsimp only
              split
              · exact inside_opened _ fs
              · split
                · exact inside_complete rfl fs
                · exact inside_fail_none _
          | firstKey =>
              dsimp only
              split
              · exact inside_complete rfl fs
              · split
                · exact inside_begin c _
                · exact inside_fail_none _
          | key members =>
              dsimp only
              split
              · exact inside_begin c _
              · exact inside_fail_none _
          | colon members k =>
              dsimp only
              split
              · exact inside_opened _ fs
              · exact inside_fail_none _
          | value members k => exact inside_begin c _
          | afterValue members =>
              dsimp only
              split
              · exact inside_opened _ fs
              · split
                · exact inside_complete rfl fs
                · exact inside_fail_none _

theorem Inside.step_finished {n : Node} {unread : List Char} {s : State}
    (h : Inside gs (.finished n unread) s) (c : Char) :
    Inside gs (.finished n (unread ++ [c])) (s.step c) := by
  cases h with
  | ended =>
      have hrun : (unread.foldl step (settle n gs)).step c = (unread ++ [c]).foldl step (settle n gs) := by
        rw [List.foldl_append]
        rfl
      rw [hrun]
      exact .ended n _
  | cutOff _ hn hs => exact .cutOff _ hn (hs.imp_right fun hs => hs.trans (begins_soFar_step s c))

theorem Inside.step_between {fs : List Frame} {s : State} (h : Inside gs (.reading .between fs) s) (c : Char) :
    Inside gs (punctuate c fs) (s.step c) := by
  cases h with
  | underWay _ hvalue => exact inside_punctuate c (hvalue rfl)

theorem resume_complete (n : Node) (fs : List Frame) (c : Char) :
    (complete n fs).resume c = (complete n fs).step c := by
  rcases complete_cases n fs with hs | ⟨gs, hs⟩ | ⟨m, -, hs⟩
  · rw [hs]
    rfl
  · rw [hs]
    rfl
  · rw [hs]
    rfl

theorem inside_resume {n : Node} (hn : n.enclosed = false) (fs : List Frame) (c : Char) :
    Inside gs ((complete n fs).resume c) ((complete n (fs ++ gs)).resume c) := by
  have h : Inside gs (complete n fs) (complete n (fs ++ gs)) := inside_complete_of_not_enclosed hn fs
  rw [resume_complete, resume_complete]
  rcases complete_cases n fs with hs | ⟨fs', hs⟩ | ⟨m, -, hs⟩
  · rw [hs] at h ⊢
    exact h.step_finished c
  · rw [hs] at h ⊢
    exact h.step_between c
  · rw [hs] at h ⊢
    exact h.step_finished c

theorem inside_step_reading {token : Token} {fs : List Frame} (htoken : token.Proper)
    (hvalue : token = .between → fs = [] → takesValue gs = true) (c : Char) :
    Inside gs (step (.reading token fs) c) (step (.reading token (fs ++ gs)) c) := by
  match token with
  | .between => exact inside_punctuate c (hvalue rfl)
  | .literal [] n => exact absurd rfl htoken.2.1
  | .literal [d] n =>
      simp only [step]
      split
      · exact inside_complete_of_not_enclosed htoken.1 fs
      · exact inside_fail_broken fs
  | .literal (d :: e :: ds) n =>
      simp only [step]
      split
      · exact inside_word _ fs ⟨htoken.1, List.cons_ne_nil e ds, fun h => htoken.2.2 (List.mem_cons_of_mem d h)⟩
      · exact inside_fail_broken fs
  | .numeral p cs =>
      simp only [step]
      split
      · exact inside_word _ fs trivial
      · split
        · exact inside_resume rfl fs c
        · exact inside_fail_broken fs
  | .string t =>
      simp only [step]
      split
      · exact inside_completeText _ fs
      · split
        · exact inside_word _ fs trivial
        · split
          · exact inside_fail_broken fs
          · exact inside_word _ fs trivial
  | .escape t =>
      simp only [step]
      split
      · exact inside_word _ fs trivial
      · split
        · exact inside_word _ fs trivial
        · exact inside_fail_broken fs
  | .unit t k n =>
      simp only [step]
      split
      · split
        · exact inside_word _ fs trivial
        · exact inside_word _ fs trivial
      · exact inside_fail_broken fs

theorem Inside.step {s t : State} (h : Inside gs s t) (c : Char) : Inside gs (s.step c) (t.step c) := by
  cases s with
  | reading token fs =>
      cases h with
      | underWay htoken hvalue => exact inside_step_reading htoken hvalue c
  | finished n unread => exact h.step_finished c

theorem Inside.run {s t : State} (h : Inside gs s t) (cs : List Char) :
    Inside gs (cs.foldl State.step s) (cs.foldl State.step t) := by
  induction cs generalizing s t with
  | nil => exact h
  | cons c cs ih => exact ih (h.step c)

theorem inside_run (hg : takesValue gs = true) (cs : List Char) :
    Inside gs (cs.foldl step (.reading .between [])) (cs.foldl step (.reading .between gs)) :=
  Inside.run (inside_between fun _ => hg) cs

theorem broken_or_plugAll_eq {under : Option Node} (h : plugAll under [] = .broken) (fs : List Frame) :
    plugAll under fs = .broken ∨ plugAll (some (plugAll under fs)) gs = plugAll under (fs ++ gs) := by
  cases fs with
  | nil => exact .inl h
  | cons f fs =>
      rw [plugAll_cons, ← plugAll_append]
      exact .inr rfl

theorem begins_soFar_settle (n : Node) (gs : List Frame) : (plugAll (some n) gs).Begins (settle n gs).soFar := by
  cases n with
  | str t => exact begins_soFar_completeText (.same _) gs
  | _ => exact begins_soFar_complete (.same _) gs

theorem Inside.begins_soFar {s t : State} (h : Inside gs s t) :
    s.soFar = .broken ∨ (plugAll (some s.soFar) gs).Begins t.soFar := by
  cases h with
  | @underWay token fs htoken hvalue =>
      have hnone : plugAll none fs = .broken ∨ plugAll (some (plugAll none fs)) gs = plugAll none (fs ++ gs) :=
        broken_or_plugAll_eq rfl fs
      have hword : plugAll (some .broken) fs = .broken ∨
          plugAll (some (plugAll (some .broken) fs)) gs = plugAll (some .broken) (fs ++ gs) :=
        broken_or_plugAll_eq rfl fs
      cases token with
      | between => exact hnone.imp_right Node.Begins.of_eq
      | _ => exact hword.imp_right Node.Begins.of_eq
  | ended n unread => exact .inr ((begins_soFar_settle n gs).trans (begins_soFar_run unread _))
  | cutOff unread hn hs => exact hs

theorem soFar_resume_blank (n : Node) (fs : List Frame) :
    ((complete n fs).resume ' ').soFar = plugAll (some n) fs := by
  rw [← soFar_complete]
  rcases complete_cases n fs with hs | ⟨gs, hs⟩ | ⟨m, -, hs⟩
  · rw [hs]
    rfl
  · rw [hs]
    rfl
  · rw [hs]
    rfl

theorem step_numeral_of_ends {p : NumeralPart} {c : Char} (hc : Ends c) (cs : List Char) (fs : List Frame) :
    step (.reading (.numeral p cs) fs) c =
      if p.mayEnd then (complete (.num cs.reverse) fs).resume c else fail (some .broken) fs := by
  simp only [step, next?_of_ends hc]

theorem soFar_step_numeral {p : NumeralPart} (h : p.mayEnd = true) (cs : List Char) (fs : List Frame) :
    (step (.reading (.numeral p cs) fs) ' ').soFar = plugAll (some (.num cs.reverse)) fs := by
  rw [step_numeral_of_ends (.inr (.inr (.inr rfl))), if_pos h, soFar_resume_blank]

theorem soFar_step_blank {token : Token} (h : token.Proper) (fs : List Frame) :
    (step (.reading token fs) ' ').soFar = (State.reading token fs).soFar ∨
      ∃ p cs, token = .numeral p cs ∧ p.mayEnd = true := by
  match token with
  | .between => exact .inl rfl
  | .literal [] n => exact absurd rfl h.2.1
  | .literal (d :: ds) n =>
      have hd : ' ' ≠ d := fun heq => h.2.2 (heq ▸ List.mem_cons_self)
      cases ds with
      | nil =>
          simp only [step, if_neg hd]
          exact .inl rfl
      | cons e ds =>
          simp only [step, if_neg hd]
          exact .inl rfl
  | .numeral p cs =>
      cases hp : p.mayEnd with
      | true => exact .inr ⟨p, cs, rfl, hp⟩
      | false =>
          rw [step_numeral_of_ends (.inr (.inr (.inr rfl))), hp]
          exact .inl rfl
  | .string t => exact .inl rfl
  | .escape t => exact .inl rfl
  | .unit t k n => exact .inl rfl

theorem begins_soFar_step_blank {c : Char} (hc : Ends c) {token : Token} (h : token.Proper) (fs : List Frame) :
    (step (.reading token fs) ' ').soFar.Begins (step (.reading token fs) c).soFar := by
  rcases soFar_step_blank h fs with hsame | ⟨p, cs, rfl, hp⟩
  · rw [hsame]
    exact begins_soFar_step _ c
  · rw [soFar_step_numeral hp, step_numeral_of_ends hc, if_pos hp]
    exact begins_soFar_resume_complete _ fs c

theorem read_eq_outcome (cs : List Char) : read cs = (cs.foldl step (.reading .between [])).outcome :=
  readFrom_eq .between [] cs

theorem Inside.begins_outcome {s t : State} (h : Inside gs s t) {c : Char} (hc : Ends c) :
    s.outcome.1 = .broken ∨ (plugAll (some s.outcome.1) gs).Begins (t.step c).soFar := by
  cases s with
  | finished n unread => exact h.begins_soFar.imp_right fun hn => hn.trans (begins_soFar_step t c)
  | reading token fs =>
      change atEnd (.reading token fs) = .broken ∨ (plugAll (some (atEnd (.reading token fs))) gs).Begins _
      -- a text that ends is read as if a blank came next, and the blank ends no more than the character does
      rw [atEnd_eq_soFar]
      refine (h.step ' ').begins_soFar.imp_right fun hn => hn.trans ?_
      cases h with
      | underWay htoken hvalue => exact begins_soFar_step_blank hc htoken _

theorem read_begins_inside (hg : takesValue gs = true) (cs : List Char) {c : Char} (hc : Ends c) :
    (read cs).1 = .broken ∨
      (plugAll (some (read cs).1) gs).Begins ((cs ++ [c]).foldl step (.reading .between gs)).soFar := by
  rw [read_eq_outcome, List.foldl_append]
  exact (inside_run hg cs).begins_outcome hc

theorem step_blank {c : Char} (h : isBlank c = true) (fs : List Frame) :
    step (.reading .between fs) c = .reading .between fs := by
  simp only [step, punctuate, h, if_true]

theorem run_blanks {cs : List Char} (h : cs.all isBlank = true) (fs : List Frame) :
    cs.foldl step (.reading .between fs) = .reading .between fs := by
  induction cs with
  | nil => rfl
  | cons c cs ih =>
      rw [List.all_cons, Bool.and_eq_true_iff] at h
      rw [List.foldl_cons, step_blank h.1, ih h.2]

theorem run_blanks_complete {cs : List Char} (h : cs.all isBlank = true) {g : Frame} {gs : List Frame}
    (hg : takesValue (g :: gs) = true) (n : Node) :
    cs.foldl step (complete n (g :: gs)) = complete n (g :: gs) := by
  cases g with
  | firstItem => exact run_blanks h _
  | item items => exact run_blanks h _
  | value members k => exact run_blanks h _
  | _ => cases hg

theorem not_intact_soFar (token : Token) (fs : List Frame) :
    (State.reading token fs).soFar.intact = false := by
  have hword : (plugAll (some .broken) fs).intact = false := intact_plugAll_broken fs
  cases token with
  | between => exact intact_plugAll_none fs
  | _ => exact hword

theorem ready_numeral_inside {p : NumeralPart} (h : p.mayEnd = true) (cs : List Char) (gs : List Frame) :
    Ready (.reading (.numeral p cs) gs) (.num cs.reverse) gs := by
  intro c hc
  rw [step_numeral_of_ends hc, if_pos h]

theorem ready_of_whole {g : Frame} (hg : takesValue (g :: gs) = true) {cs : List Char} (h : Whole cs) :
    Ready (cs.foldl step (.reading .between (g :: gs))) (read cs).1 (g :: gs) := by
  obtain ⟨hintact, hblanks⟩ := h
  have hinside := inside_run hg cs
  rw [read_eq_outcome] at hintact hblanks ⊢
  generalize cs.foldl step (.reading .between []) = s at hintact hblanks hinside ⊢
  generalize cs.foldl step (.reading .between (g :: gs)) = t at hinside ⊢
  cases s with
  | finished n unread =>
      cases hinside with
      | ended =>
          rw [settle_of_takesValue hg, run_blanks_complete (show unread.all isBlank = true from hblanks) hg]
          exact ready_complete hg
      | cutOff _ hn => exact absurd (hn.symm.trans hintact) Bool.false_ne_true
  | reading token fs =>
      -- only a numeral is a whole value and not over yet
      change (atEnd (.reading token fs)).intact = true at hintact
      change Ready t (atEnd (.reading token fs)) (g :: gs)
      rw [atEnd_eq_soFar] at hintact ⊢
      cases hinside with
      | underWay htoken hvalue =>
          rcases soFar_step_blank htoken fs with hsame | ⟨p, rev, rfl, hp⟩
          · rw [hsame, not_intact_soFar] at hintact
            cases hintact
          · rw [soFar_step_numeral hp] at hintact ⊢
            cases fs with
            | nil => exact ready_numeral_inside hp rev (g :: gs)
            | cons f fs =>
                rw [intact_plugAll_cons] at hintact
                cases hintact

end State

end RunControl.Json
