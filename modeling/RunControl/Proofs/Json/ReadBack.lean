import RunControl.Json.Reader
import RunControl.Json.Writer

namespace RunControl.Json

namespace NumeralPart

def first? (c : Char) : Option NumeralPart :=
  if c = '-' then some .minus
  else if c = '0' then some .zero
  else if c.isDigit then some .whole
  else none

def after? (p : NumeralPart) : List Char → Option NumeralPart
  | [] => some p
  | c :: cs => (p.next? c).bind fun q => q.after? cs

end NumeralPart

def isNumeral : List Char → Bool
  | [] => false
  | c :: cs => ((NumeralPart.first? c).bind fun p => p.after? cs).any NumeralPart.mayEnd

mutual

def Node.legible : Node → Bool
  | .num lexeme => isNumeral lexeme
  | .seq items => items.legible
  | .map members => members.legible
  | .broken => false
  | _ => true

def Items.legible : Items → Bool
  | .closed => true
  | .broken => false
  | .cons n r => n.legible && r.legible

def Members.legible : Members → Bool
  | .closed => true
  | .broken => false
  | .cons _ n r => n.legible && r.legible

end

theorem Items.ofList_append (last : Items) (xs ys : List Node) :
    ofList last (xs ++ ys) = ofList (ofList last ys) xs := by
  induction xs with
  | nil => rfl
  | cons x xs ih => simp only [List.cons_append, ofList, ih]

theorem Members.ofList_append (last : Members) (xs ys : List (Option String × Node)) :
    ofList last (xs ++ ys) = ofList (ofList last ys) xs := by
  induction xs with
  | nil => rfl
  | cons x xs ih => simp only [List.cons_append, ofList, ih]

namespace State

theorem foldl_step_finished (n : Node) (unread cs : List Char) :
    cs.foldl step (.finished n unread) = .finished n (unread ++ cs) := by
  induction cs generalizing unread with
  | nil => simp
  | cons c cs ih =>
      rw [List.foldl_cons]
      show cs.foldl step (.finished n (unread ++ [c])) = _
      rw [ih, List.append_assoc]
      rfl

def outcome : State → Node × List Char
  | .finished n unread => (n, unread)
  | s => (s.atEnd, [])

theorem readFrom_eq (token : Token) (fs : List Frame) (cs : List Char) :
    readFrom (.reading token fs) cs = (cs.foldl step (.reading token fs)).outcome := by
  induction cs generalizing token fs with
  | nil => rfl
  | cons c cs ih =>
      rw [List.foldl_cons, readFrom]
      cases hs : step (.reading token fs) c with
      | reading token' fs' => exact ih token' fs'
      | finished n unread => rw [foldl_step_finished, outcome]

end State

theorem hexDigit?_digitChar : ∀ d < 16, hexDigit? (Nat.digitChar d) = some d := by
  decide

theorem TextSoFar.pushUnit_toNat (t : TextSoFar) {c : Char} (h : c.toNat < 0x20) :
    t.pushUnit c.toNat = t.push c := by
  have h1 : ¬ (0xd800 ≤ c.toNat ∧ c.toNat < 0xdc00) := by omega
  have h2 : ¬ (0xdc00 ≤ c.toNat ∧ c.toNat < 0xe000) := by omega
  rw [pushUnit, if_neg h1, if_neg h2, Char.ofNat_toNat]

theorem step_unit (t : TextSoFar) (fs : List Frame) (k n : Nat) {c : Char} {d : Nat}
    (h : hexDigit? c = some d) :
    State.step (.reading (.unit t k n) fs) c =
      if k < 3 then .reading (.unit t (k + 1) (n * 16 + d)) fs
      else .reading (.string (t.pushUnit (n * 16 + d))) fs := by
  simp only [State.step, h]

theorem step_hexPair (t : TextSoFar) (fs : List Frame) {n : Nat} (h : n < 0x20) :
    (hexPair n).foldl State.step (.reading (.unit t 2 0) fs) =
      .reading (.string (t.pushUnit n)) fs := by
  have h1 := hexDigit?_digitChar (n / 16) (by omega)
  have h2 := hexDigit?_digitChar (n % 16) (by omega)
  have hn : (0 * 16 + n / 16) * 16 + n % 16 = n := by omega
  rw [hexPair, List.foldl_cons, step_unit t fs 2 0 h1, if_pos (by decide), List.foldl_cons,
    step_unit t fs 3 _ h2, if_neg (by decide), hn, List.foldl_nil]

theorem step_escapeChar (t : TextSoFar) (fs : List Frame) (c : Char) :
    (escapeChar c).foldl State.step (.reading (.string t) fs) = .reading (.string (t.push c)) fs := by
  unfold escapeChar
  split
  case h_8 c hquote hslash _ _ _ _ _ =>
    split
    · rename_i hlt
      have hp := step_hexPair t fs hlt
      rw [t.pushUnit_toNat hlt] at hp
      rw [← hp]
      rfl
    · rename_i hge
      simp only [List.foldl_cons, List.foldl_nil, State.step, if_neg hquote, if_neg hslash, if_neg hge]
  all_goals rfl

theorem step_chars (t : TextSoFar) (fs : List Frame) (cs : List Char) :
    (cs.flatMap escapeChar).foldl State.step (.reading (.string t) fs) =
      .reading (.string (cs.foldl TextSoFar.push t)) fs := by
  induction cs generalizing t with
  | nil => rfl
  | cons c cs ih =>
      rw [List.flatMap_cons, List.foldl_append, step_escapeChar, ih, List.foldl_cons]

theorem foldl_push (r cs : List Char) :
    cs.foldl TextSoFar.push ⟨r, none, true⟩ = ⟨cs.reverse ++ r, none, true⟩ := by
  induction cs generalizing r with
  | nil => rfl
  | cons c cs ih =>
      rw [List.foldl_cons]
      show cs.foldl TextSoFar.push ⟨c :: r, none, true⟩ = _
      rw [ih]
      simp

theorem step_renderText (k : Option String) {fs : List Frame}
    (hq : State.punctuate '"' fs = State.begin '"' fs) :
    (renderText k).foldl State.step (.reading .between fs) = State.completeText k fs := by
  cases k with
  | none =>
      show [_, _, _, _, _, _, _].foldl State.step (State.punctuate '"' fs) = _
      rw [hq]
      rfl
  | some s =>
      show (s.toList.flatMap escapeChar ++ ['"']).foldl State.step (State.punctuate '"' fs) = _
      rw [hq, List.foldl_append]
      show ['"'].foldl State.step
        ((s.toList.flatMap escapeChar).foldl State.step (.reading (.string .empty) fs)) = _
      rw [step_chars, TextSoFar.empty, foldl_push]
      simp [State.step, TextSoFar.close]

theorem begin_of_first? {c : Char} {p : NumeralPart} (h : NumeralPart.first? c = some p)
    (fs : List Frame) : State.begin c fs = .reading (.numeral p [c]) fs := by
  simp only [NumeralPart.first?] at h
  split at h
  · rename_i hc
    rw [hc, ← Option.some.inj h]
    rfl
  · split at h
    · rename_i hc
      rw [hc, ← Option.some.inj h]
      rfl
    · split at h
      · rename_i hminus hzero hd
        rw [← Option.some.inj h]
        unfold State.begin
        split
        case h_9 => rw [if_pos hd]
        all_goals first | exact absurd hd (by decide) | exact absurd rfl hzero
      · cases h

theorem step_numeral {p q : NumeralPart} (cs rev : List Char) (h : p.after? cs = some q)
    (fs : List Frame) :
    cs.foldl State.step (.reading (.numeral p rev) fs) =
      .reading (.numeral q (cs.reverse ++ rev)) fs := by
  induction cs generalizing p rev with
  | nil =>
      cases h
      rfl
  | cons c cs ih =>
      obtain ⟨r, hr, hq⟩ := Option.bind_eq_some_iff.mp h
      have hs : State.step (.reading (.numeral p rev) fs) c = .reading (.numeral r (c :: rev)) fs := by
        simp only [State.step, hr]
      rw [List.foldl_cons, hs, ih (c :: rev) hq]
      simp

def Ends (c : Char) : Prop :=
  c = ',' ∨ c = ']' ∨ c = '\x7d' ∨ c = ' '

theorem next?_of_ends {c : Char} (hc : Ends c) (p : NumeralPart) : p.next? c = none := by
  rcases hc with rfl | rfl | rfl | rfl <;> cases p <;> rfl

def takesValue : List Frame → Bool
  | [] => true
  | .firstItem :: _ => true
  | .item _ :: _ => true
  | .value _ _ :: _ => true
  | _ => false

theorem punctuate_of_takesValue {fs : List Frame} (hf : takesValue fs = true) {c : Char}
    (hb : isBlank c = false) (hc : c ≠ ']') : State.punctuate c fs = State.begin c fs := by
  simp only [State.punctuate, hb, Bool.false_eq_true, if_false]
  split <;> first | rfl | exact if_neg hc | cases hf

theorem completeText_of_takesValue {fs : List Frame} (hf : takesValue fs = true)
    (t : Option String) : State.completeText t fs = State.complete (.str t) fs := by
  unfold State.completeText
  split <;> first | rfl | cases hf

def Ready (s : State) (n : Node) (fs : List Frame) : Prop :=
  ∀ c, Ends c → s.step c = (State.complete n fs).resume c

theorem ready_complete {n : Node} {fs : List Frame} (hf : takesValue fs = true) :
    Ready (State.complete n fs) n fs := by
  intro c _
  match fs, hf with
  | [], _ => rfl
  | .firstItem :: _, _ => rfl
  | .item _ :: _, _ => rfl
  | .value _ _ :: _, _ => rfl

theorem first?_spec {c : Char} {p : NumeralPart} (h : NumeralPart.first? c = some p) :
    isBlank c = false ∧ c ≠ ']' := by
  constructor
  · cases hb : isBlank c with
    | false => rfl
    | true =>
        simp only [isBlank, Bool.or_eq_true, beq_iff_eq] at hb
        rcases hb with ((rfl | rfl) | rfl) | rfl <;> cases h
  · rintro rfl
    cases h

theorem ready_numeral {lexeme : List Char} (h : isNumeral lexeme = true) {fs : List Frame}
    (hf : takesValue fs = true) :
    Ready (lexeme.foldl State.step (.reading .between fs)) (.num lexeme) fs := by
  cases lexeme with
  | nil => cases h
  | cons c cs =>
      obtain ⟨q, hq, hend⟩ := (Option.any_eq_true _ _).mp h
      obtain ⟨p, hp, hafter⟩ := Option.bind_eq_some_iff.mp hq
      obtain ⟨hb, hc⟩ := first?_spec hp
      have hs : State.step (.reading .between fs) c = .reading (.numeral p [c]) fs := by
        show State.punctuate c fs = _
        rw [punctuate_of_takesValue hf hb hc, begin_of_first? hp]
      intro d hd
      rw [List.foldl_cons, hs, step_numeral cs [c] hafter]
      simp [State.step, next?_of_ends hd, hend]

theorem step_between (fs : List Frame) (c : Char) (cs : List Char) :
    (c :: cs).foldl State.step (.reading .between fs) = cs.foldl State.step (State.punctuate c fs) :=
  rfl

theorem ready_literal {fs : List Frame} (hf : takesValue fs = true) {c : Char} {cs : List Char}
    {n : Node} (hb : isBlank c = false) (hc : c ≠ ']')
    (h : cs.foldl State.step (State.begin c fs) = State.complete n fs) :
    Ready ((c :: cs).foldl State.step (.reading .between fs)) n fs := by
  rw [step_between, punctuate_of_takesValue hf hb hc, h]
  exact ready_complete hf

theorem step_key (k : Option String) {f : Frame} {fs : List Frame}
    {acc : List (Option String × Node)}
    (hq : State.punctuate '"' (f :: fs) = State.begin '"' (f :: fs))
    (hk : State.completeText k (f :: fs) = .reading .between (.colon acc k :: fs)) (cs : List Char) :
    (renderText k ++ ':' :: cs).foldl State.step (.reading .between (f :: fs)) =
      cs.foldl State.step (.reading .between (.value acc k :: fs)) := by
  rw [List.foldl_append, step_renderText k hq, hk]
  rfl

mutual

theorem ready_node (n : Node) (h : n.legible = true) (fs : List Frame) (hf : takesValue fs = true) :
    Ready (n.render.foldl State.step (.reading .between fs)) n fs := by
  match n with
  | .null => exact ready_literal hf rfl (by decide) rfl
  | .bool true => exact ready_literal hf rfl (by decide) rfl
  | .bool false => exact ready_literal hf rfl (by decide) rfl
  | .num lexeme => exact ready_numeral h hf
  | .str text =>
      have hq := punctuate_of_takesValue hf (c := '"') rfl (by decide)
      have ht := step_renderText text hq
      rw [completeText_of_takesValue hf] at ht
      rw [Node.render, ht]
      exact ready_complete hf
  | .seq .closed => exact ready_literal hf rfl (by decide) rfl
  | .seq .broken => cases h
  | .seq (.cons n r) =>
      have hn : n.legible = true ∧ r.legible = true := Bool.and_eq_true_iff.mp h
      have hready := ready_node n hn.1 (.firstItem :: fs) rfl
      apply ready_literal hf rfl (by decide)
      show (n.render ++ r.render [',']).foldl State.step (.reading .between (.firstItem :: fs)) = _
      rw [List.foldl_append]
      exact step_items r hn.2 [n] fs hready
  | .map .closed => exact ready_literal hf rfl (by decide) rfl
  | .map .broken => cases h
  | .map (.cons k n r) =>
      have hn : n.legible = true ∧ r.legible = true := Bool.and_eq_true_iff.mp h
      have hready := ready_node n hn.1 (.value [] k :: fs) rfl
      apply ready_literal hf rfl (by decide)
      show (renderText k ++ ':' :: n.render ++ r.render [',']).foldl State.step
        (.reading .between (.firstKey :: fs)) = _
      rw [List.foldl_append, step_key k rfl rfl]
      exact step_members r hn.2 [(k, n)] fs hready
  | .broken => cases h

theorem step_items (items : Items) (h : items.legible = true) (acc : List Node) (fs : List Frame)
    {s : State} (hs : ∀ c, Ends c → s.step c = State.punctuate c (.afterItem acc :: fs)) :
    (items.render [',']).foldl State.step s =
      State.complete (.seq (Items.ofList items acc.reverse)) fs := by
  match items with
  | .closed =>
      show s.step ']' = _
      rw [hs ']' (.inr (.inl rfl))]
      rfl
  | .broken => cases h
  | .cons n r =>
      have hn : n.legible = true ∧ r.legible = true := Bool.and_eq_true_iff.mp h
      have hready := ready_node n hn.1 (.item acc :: fs) rfl
      have hcomma : s.step ',' = .reading .between (.item acc :: fs) := hs ',' (.inl rfl)
      show (n.render ++ r.render [',']).foldl State.step (s.step ',') = _
      rw [hcomma, List.foldl_append, step_items r hn.2 (n :: acc) fs hready, List.reverse_cons,
        Items.ofList_append]
      rfl

theorem step_members (members : Members) (h : members.legible = true)
    (acc : List (Option String × Node)) (fs : List Frame) {s : State}
    (hs : ∀ c, Ends c → s.step c = State.punctuate c (.afterValue acc :: fs)) :
    (members.render [',']).foldl State.step s =
      State.complete (.map (Members.ofList members acc.reverse)) fs := by
  match members with
  | .closed =>
      show s.step '\x7d' = _
      rw [hs '\x7d' (.inr (.inr (.inl rfl)))]
      rfl
  | .broken => cases h
  | .cons k n r =>
      have hn : n.legible = true ∧ r.legible = true := Bool.and_eq_true_iff.mp h
      have hready := ready_node n hn.1 (.value acc k :: fs) rfl
      have hcomma : s.step ',' = .reading .between (.key acc :: fs) := hs ',' (.inl rfl)
      show (renderText k ++ ':' :: n.render ++ r.render [',']).foldl State.step (s.step ',') = _
      rw [hcomma, List.foldl_append, step_key k rfl rfl,
        step_members r hn.2 ((k, n) :: acc) fs hready, List.reverse_cons, Members.ofList_append]
      rfl

end

theorem read_render {n : Node} (h : n.legible = true) : read n.render = (n, []) := by
  have hready := ready_node n h [] rfl ' ' (.inr (.inr (.inr rfl)))
  rw [read, State.readFrom_eq]
  cases hs : n.render.foldl State.step (.reading .between []) with
  | reading token fs =>
      rw [hs] at hready
      simp only [State.outcome, State.atEnd, hready]
      rfl
  | finished m unread =>
      rw [hs] at hready
      have he : State.finished m (unread ++ [' ']) = .finished n [' '] := hready
      obtain ⟨rfl, hu⟩ := State.finished.inj he
      have hnil : unread = [] := by simpa using hu
      rw [State.outcome, hnil]

end RunControl.Json
