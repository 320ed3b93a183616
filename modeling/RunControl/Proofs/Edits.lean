import RunControl.Proofs.Disabled
import RunControl.Proofs.Persistence

namespace RunControl

inductive Edit where
  | add (breakpoint : Breakpoint)
  | remove (address : Address)
  | toggle (address : Address)
  deriving DecidableEq, Repr

inductive Reply where
  | added
  | removed (existed : Bool)
  | toggled (breakpoint : Breakpoint)
  deriving DecidableEq, Repr

inductive Intent where
  | answer (reply : Except Error Reply)
  | write (entry : Option Breakpoint) (reply : Reply)

namespace Edit

def address : Edit → Address
  | .add b => b.address
  | .remove a => a
  | .toggle a => a

def intent : Edit → Option Breakpoint → Intent
  | .add b, _ => .write (some b) .added
  | .remove _, none => .answer (.ok (.removed false))
  | .remove _, some _ => .write none (.removed true)
  | .toggle a, none => .answer (.error (.noBreakpoint a))
  | .toggle _, some b =>
      let b' := { b with disabled := !b.disabled }
      .write (some b') (.toggled b')

theorem address_of_intent {e : Edit} {entry entry' : Option Breakpoint} {reply : Reply}
    (h : e.intent entry = .write entry' reply) (hentry : ∀ b, entry = some b → b.address = e.address) :
    ∀ b, entry' = some b → b.address = e.address := by
  cases e with
  | add b =>
      cases h
      rintro _ ⟨⟩
      rfl
  | remove a =>
      cases entry with
      | none => cases h
      | some b =>
          cases h
          exact nofun
  | toggle a =>
      cases entry with
      | none => cases h
      | some b =>
          cases h
          rintro _ ⟨⟩
          exact hentry b rfl

end Edit

structure Made where
  edit : Edit
  written? : Option (Except StorageFault Unit)
  reply : Except Error Reply

namespace Made

def address (m : Made) : Address := m.edit.address

def wrote (m : Made) : Bool := m.written?.isSome

def given (m : Made) : Edit × Except StorageFault Unit :=
  (m.edit, m.written?.getD (.ok ()))

end Made

def Edit.settle (e : Edit) (entry : Option Breakpoint) (answer : Except StorageFault Unit) :
    Made × Option Breakpoint :=
  match e.intent entry with
  | .answer reply => (⟨e, none, reply⟩, entry)
  | .write entry' reply =>
      match answer with
      | .ok () => (⟨e, some (.ok ()), .ok reply⟩, entry')
      | .error fault => (⟨e, some (.error fault), .error (.storage fault)⟩, entry)

def replay (entry : Option Breakpoint) :
    List (Edit × Except StorageFault Unit) → List Made × Option Breakpoint
  | [] => ([], entry)
  | (e, answer) :: rest =>
      let (made, entry) := e.settle entry answer
      let (others, entry) := replay entry rest
      (made :: others, entry)

namespace Store

variable {σ : Type} [Storage σ]

def edit (s : Store σ) : Edit → Except Error Reply × Store σ
  | .add b =>
      let (r, t) := s.add b
      (r.map fun _ => .added, t)
  | .remove a =>
      let (r, t) := s.remove a
      (r.map .removed, t)
  | .toggle a =>
      let (r, t) := s.toggle a
      (r.map .toggled, t)

def edits (s : Store σ) (es : List Edit) : Store σ :=
  es.foldl (fun s e => (s.edit e).2) s

def answer? (s : Store σ) (e : Edit) : Option (Except StorageFault Unit) :=
  match e.intent (s.set.at? e.address) with
  | .answer _ => none
  | .write entry _ =>
      some (Storage.set s.storage s.key (BreakpointSet.text (s.set.putBack e.address entry))).1

def made (s : Store σ) (e : Edit) : Made :=
  ⟨e, s.answer? e, (s.edit e).1⟩

def history (s : Store σ) : List Edit → List Made
  | [] => []
  | e :: es => s.made e :: (s.edit e).2.history es

def historyAt (s : Store σ) (es : List Edit) (a : Address) : List Made :=
  (s.history es).filter (·.address = a)

def wrote (s : Store σ) (es : List Edit) : Bool :=
  (s.history es).any Made.wrote

theorem map_const_map {α β : Type} (r : Except Error Unit) (x : α) (f : α → β) :
    (r.map fun _ => x).map f = r.map fun _ => f x := by
  cases r <;> rfl

theorem edit_eq (s : Store σ) (e : Edit) :
    s.edit e = match e.intent (s.set.at? e.address) with
      | .answer reply => (reply, s)
      | .write entry reply =>
          let (r, t) := s.commit (s.set.putBack e.address entry)
          (r.map fun _ => reply, t) := by
  cases e with
  | add b => rw [edit, add_eq]; rfl
  | remove a =>
      simp only [edit, remove_eq, Edit.address, BreakpointSet.contains_eq_isSome_at?]
      cases s.set.at? a with
      | none => rfl
      | some b =>
          simp only [Option.isSome_some, if_true, map_const_map]
          rfl
  | toggle a =>
      simp only [edit, toggle_eq, Edit.address]
      cases hb : s.set.at? a with
      | none => rfl
      | some b =>
          obtain rfl := BreakpointSet.address_of_at? hb
          simp only [map_const_map]
          rfl

theorem edit_of_answer {s : Store σ} {e : Edit} {reply : Except Error Reply}
    (h : e.intent (s.set.at? e.address) = .answer reply) :
    s.answer? e = none ∧ s.edit e = (reply, s) := by
  rw [edit_eq, answer?, h]
  exact ⟨rfl, rfl⟩

theorem edit_of_write {s : Store σ} {e : Edit} {entry : Option Breakpoint} {reply : Reply}
    (h : e.intent (s.set.at? e.address) = .write entry reply) {answer : Except StorageFault Unit}
    {storage : σ} (hset : Storage.set s.storage s.key
      (BreakpointSet.text (s.set.putBack e.address entry)) = (answer, storage)) :
    s.answer? e = some answer ∧
      s.edit e = match answer with
        | .ok () => (.ok reply, { s with set := s.set.putBack e.address entry, storage })
        | .error fault => (.error (.storage fault), { s with storage }) := by
  simp only [edit_eq, answer?, h, commit_eq, hset]
  cases answer <;> exact ⟨trivial, rfl⟩

omit [Storage σ] in
theorem at?_written {s : Store σ} {e : Edit} {entry : Option Breakpoint} {reply : Reply}
    (h : e.intent (s.set.at? e.address) = .write entry reply) (a : Address) :
    (s.set.putBack e.address entry).at? a = if a = e.address then entry else s.set.at? a :=
  s.set.at?_putBack e.address a (Edit.address_of_intent h fun _ hb => BreakpointSet.address_of_at? hb)

theorem at?_edit_of_ne (s : Store σ) {e : Edit} {a : Address} (h : a ≠ e.address) :
    (s.edit e).2.set.at? a = s.set.at? a := by
  cases hi : e.intent (s.set.at? e.address) with
  | answer reply => rw [(edit_of_answer hi).2]
  | write entry reply =>
      rcases hset : Storage.set s.storage s.key (BreakpointSet.text (s.set.putBack e.address entry))
        with ⟨fault | u, storage⟩
      · rw [(edit_of_write hi hset).2]
      · rw [(edit_of_write hi hset).2]
        exact (at?_written hi a).trans (if_neg h)

theorem settle_given (s : Store σ) (e : Edit) :
    e.settle (s.set.at? e.address) (s.made e).given.2 =
      (s.made e, (s.edit e).2.set.at? e.address) := by
  cases hi : e.intent (s.set.at? e.address) with
  | answer reply =>
      obtain ⟨hanswer, hedit⟩ := edit_of_answer hi
      simp only [Edit.settle, made, hi, hanswer, hedit]
  | write entry reply =>
      rcases hset : Storage.set s.storage s.key (BreakpointSet.text (s.set.putBack e.address entry))
        with ⟨fault | u, storage⟩
      · obtain ⟨hanswer, hedit⟩ := edit_of_write hi hset
        simp only [Edit.settle, made, Made.given, hi, hanswer, hedit, Option.getD_some]
      · obtain ⟨hanswer, hedit⟩ := edit_of_write hi hset
        have hentry := at?_written hi e.address
        rw [if_pos rfl] at hentry
        simp only [Edit.settle, made, Made.given, hi, hanswer, hedit, Option.getD_some, hentry]

theorem historyAt_cons (s : Store σ) (e : Edit) (es : List Edit) (a : Address) :
    s.historyAt (e :: es) a =
      if e.address = a then s.made e :: (s.edit e).2.historyAt es a
      else (s.edit e).2.historyAt es a := by
  simp only [historyAt, history, List.filter_cons, decide_eq_true_iff]
  rfl

theorem edits_cons (s : Store σ) (e : Edit) (es : List Edit) :
    s.edits (e :: es) = (s.edit e).2.edits es := rfl

theorem replay_historyAt (s : Store σ) (es : List Edit) (a : Address) :
    replay (s.set.at? a) ((s.historyAt es a).map Made.given) =
      (s.historyAt es a, (s.edits es).set.at? a) := by
  -- The store changes with every edit, the entry only with those of its address: the others drop out
  -- of the history and leave the entry to the rest.
  induction es generalizing s with
  | nil => rfl
  | cons e es ih =>
      rw [historyAt_cons, edits_cons]
      by_cases ha : e.address = a
      · subst ha
        have hgiven : (s.made e).given = (e, (s.made e).given.2) := rfl
        rw [if_pos rfl, List.map_cons, hgiven, replay, s.settle_given e]
        simp only [ih]
      · rw [if_neg ha, ← ih, s.at?_edit_of_ne (Ne.symm ha)]

theorem given_of_accepts {s : Store σ} (h : Storage.Accepts s.storage) (e : Edit) :
    (s.made e).given = (e, .ok ()) := by
  simp only [Made.given, made, answer?]
  cases e.intent (s.set.at? e.address) with
  | answer reply => rfl
  | write entry reply => exact congrArg (Prod.mk e) (h s.key _)

theorem alwaysAccepts_edit {s : Store σ} (h : Storage.AlwaysAccepts s.storage) (e : Edit) :
    Storage.AlwaysAccepts (s.edit e).2.storage := by
  rw [edit_eq]
  cases e.intent (s.set.at? e.address) with
  | answer reply => exact h
  | write entry reply => exact kept_alwaysAccepts s _ h

theorem given_historyAt {s : Store σ} (h : Storage.AlwaysAccepts s.storage) (es : List Edit)
    (a : Address) :
    (s.historyAt es a).map Made.given = (es.filter (·.address = a)).map (·, .ok ()) := by
  induction es generalizing s with
  | nil => rfl
  | cons e es ih =>
      have hrest := ih (alwaysAccepts_edit h e)
      rw [historyAt_cons, List.filter_cons]
      by_cases ha : e.address = a
      · simp only [ha, if_true, List.map_cons, hrest, given_of_accepts (h []) e]
        simp
      · simpa [ha] using hrest

theorem edit_eq_self {s : Store σ} {e : Edit} (h : (s.made e).wrote = false) : (s.edit e).2 = s := by
  cases hi : e.intent (s.set.at? e.address) with
  | answer reply => rw [(edit_of_answer hi).2]
  | write entry reply => simp [Made.wrote, made, answer?, hi] at h

theorem saved?_edit [LawfulStorage σ] {s : Store σ} (h : Storage.Accepts s.storage) {e : Edit}
    (hw : (s.made e).wrote = true) : (s.edit e).2.saved? = some (s.edit e).2.set.text := by
  cases hi : e.intent (s.set.at? e.address) with
  | answer reply => simp [Made.wrote, made, (edit_of_answer hi).1] at hw
  | write entry reply =>
      have hok := h s.key (BreakpointSet.text (s.set.putBack e.address entry))
      have hget := LawfulStorage.get?_of_ok s.storage s.key _ hok
      rcases hset : Storage.set s.storage s.key (BreakpointSet.text (s.set.putBack e.address entry))
        with ⟨fault | u, storage⟩
      · rw [hset] at hok
        cases hok
      · rw [hset] at hget
        rw [(edit_of_write hi hset).2]
        exact hget

theorem saved?_edits [LawfulStorage σ] {s : Store σ} (h : Storage.AlwaysAccepts s.storage)
    {es : List Edit} (hs : s.saved? = some s.set.text ∨ s.wrote es = true) :
    (s.edits es).saved? = some (s.edits es).set.text := by
  induction es generalizing s with
  | nil => exact hs.resolve_right Bool.false_ne_true
  | cons e es ih =>
      rw [edits_cons]
      refine ih (alwaysAccepts_edit h e) ?_
      cases hw : (s.made e).wrote with
      | true => exact .inl (saved?_edit (h []) hw)
      | false =>
          rw [edit_eq_self hw]
          refine hs.imp_right fun hwrote => ?_
          rwa [wrote, history, List.any_cons, hw, Bool.false_or, edit_eq_self hw] at hwrote

theorem wrote_iff (s : Store σ) (es : List Edit) :
    s.wrote es = true ↔ ∃ a, (s.historyAt es a).any Made.wrote = true := by
  simp only [wrote, historyAt, List.any_eq_true, List.mem_filter, decide_eq_true_iff]
  constructor
  · rintro ⟨m, hm, hw⟩
    exact ⟨m.address, m, ⟨hm, rfl⟩, hw⟩
  · rintro ⟨a, m, ⟨hm, -⟩, hw⟩
    exact ⟨m, hm, hw⟩

def replayAt (s : Store σ) (es : List Edit) (a : Address) : List Made × Option Breakpoint :=
  replay (s.set.at? a) ((s.historyAt es a).map Made.given)

structure DecidedAt (s : Store σ) (es : List Edit) (a : Address) : Prop where
  history : s.historyAt es a = (s.replayAt es a).1
  entry : (s.edits es).set.at? a = (s.replayAt es a).2
  armed : (s.edits es).set.isArmedAt a = (s.replayAt es a).2.any Breakpoint.isEnabled
  enabled : a ∈ (s.edits es).set.enabled ↔ (s.replayAt es a).2.any Breakpoint.isEnabled = true

structure Listed (s : BreakpointSet) : Prop where
  ascending : s.toList.Pairwise fun a b => a.address < b.address
  mem_iff : ∀ b, b ∈ s.toList ↔ s.at? b.address = some b
  size_eq : s.size = s.toList.length
  enabled_eq : s.enabled = (s.toList.filter Breakpoint.isEnabled).map (·.address)

structure SameEnd (s : Store σ) (es fs : List Edit) : Prop where
  history : ∀ a, s.historyAt es a = s.historyAt fs a
  list : (s.edits es).set.toList = (s.edits fs).set.toList
  wrote : s.wrote es = s.wrote fs
  saved : LawfulStorage σ → s.wrote es = true →
    (s.edits es).saved? = some (s.edits es).set.text ∧
      (s.edits fs).saved? = some (s.edits es).set.text

theorem decidedAt (s : Store σ) (es : List Edit) (a : Address) : s.DecidedAt es a := by
  have hreplay : s.replayAt es a = (s.historyAt es a, (s.edits es).set.at? a) :=
    s.replay_historyAt es a
  refine ⟨?_, ?_, ?_, ?_⟩ <;> rw [hreplay]
  · rfl
  · exact BreakpointSet.mem_enabled_iff

omit [Storage σ] in
theorem listed (s : BreakpointSet) : Listed s where
  ascending := s.toList_ascending
  mem_iff _ := BreakpointSet.mem_toList_iff
  size_eq := (List.length_map _).symm
  enabled_eq := rfl

theorem sameEnd_of_filter {s : Store σ} (h : Storage.AlwaysAccepts s.storage)
    {es fs : List Edit} (hef : ∀ a, es.filter (·.address = a) = fs.filter (·.address = a)) :
    s.SameEnd es fs := by
  have hreplay : ∀ a, (s.historyAt es a, (s.edits es).set.at? a) =
      (s.historyAt fs a, (s.edits fs).set.at? a) := by
    intro a
    rw [← replay_historyAt, ← replay_historyAt, given_historyAt h, given_historyAt h, hef]
  have hhistory : ∀ a, s.historyAt es a = s.historyAt fs a := fun a => congrArg Prod.fst (hreplay a)
  have hset : (s.edits es).set = (s.edits fs).set :=
    BreakpointSet.ext_at? fun a => congrArg Prod.snd (hreplay a)
  have hwrote : s.wrote es = s.wrote fs := by
    rw [Bool.eq_iff_iff, wrote_iff, wrote_iff]
    simp only [hhistory]
  refine ⟨hhistory, congrArg BreakpointSet.toList hset, hwrote, fun _ hw => ⟨saved?_edits h (.inr hw), ?_⟩⟩
  rw [hset]
  exact saved?_edits h (.inr (hwrote ▸ hw))

theorem edits_by_address (s : Store σ) (es : List Edit) :
    (∀ a, s.DecidedAt es a) ∧ Listed (s.edits es).set ∧
      (Storage.AlwaysAccepts s.storage → ∀ fs : List Edit,
        (∀ a, es.filter (·.address = a) = fs.filter (·.address = a)) → s.SameEnd es fs) :=
  ⟨s.decidedAt es, listed _, fun h _ hef => sameEnd_of_filter h hef⟩

theorem edits_by_address_reordered :
    let s : Store MemoryStorage := .load "p" ⟨.ofList [("p", "[\x7b\"address\":10\x7d]")]⟩
    let es : List Edit := [.toggle 10, .add (.single 20), .remove 30, .remove 20, .remove 10]
    let fs : List Edit := [.add (.single 20), .toggle 10, .remove 10, .remove 20, .remove 30]
    ((∀ a, es.filter (·.address = a) = fs.filter (·.address = a)) ∧ s.wrote es = true) ∧
      (∀ a, s.DecidedAt es a) ∧ s.SameEnd es fs := by
  intro s es fs
  have hef : ∀ a, es.filter (·.address = a) = fs.filter (·.address = a) := by
    intro a
    simp only [es, fs, List.filter_cons, List.filter_nil, Edit.address, Breakpoint.single]
    by_cases h10 : 10 = a
    · subst h10
      decide
    · by_cases h20 : 20 = a
      · subst h20
        decide
      · simp [h10, h20]
  have hwrote : s.wrote es = true := by decide +kernel
  obtain ⟨hdecided, -, hsame⟩ := edits_by_address s es
  exact ⟨⟨hef, hwrote⟩, hdecided, hsame (MemoryStorage.alwaysAccepts _) fs hef⟩

end Store

end RunControl
