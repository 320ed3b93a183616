import RunControl.Json.Reader

namespace RunControl.Json

def Node.enclosed : Node → Bool
  | .str _ => true
  | .seq items => items.intact
  | .map members => members.intact
  | _ => false

theorem Node.intact_of_enclosed {n : Node} (h : n.enclosed = true) : n.intact = true := by
  cases n with
  | str text => rfl
  | seq items => exact h
  | map members => exact h
  | _ => cases h

theorem Node.not_enclosed_of_broken {n : Node} (h : n.intact = false) : n.enclosed = false := by
  cases he : n.enclosed with
  | false => rfl
  | true =>
      rw [intact_of_enclosed he] at h
      cases h

mutual

theorem Node.intact_of_bufferable {room : Nat} (n : Node) (h : n.bufferable room = true) :
    n.intact = true := by
  match n with
  | .null => rfl
  | .bool _ => rfl
  | .num _ => rfl
  | .str _ => rfl
  | .seq items => exact items.intact_of_bufferable (Bool.and_eq_true_iff.mp h).2
  | .map members => exact members.intact_of_bufferable (Bool.and_eq_true_iff.mp h).2
  | .broken => cases h

theorem Items.intact_of_bufferable {room : Nat} (items : Items) (h : items.bufferable room = true) :
    items.intact = true := by
  match items with
  | .closed => rfl
  | .broken => cases h
  | .cons n r =>
      obtain ⟨hn, hr⟩ := Bool.and_eq_true_iff.mp h
      rw [Items.intact, n.intact_of_bufferable hn, r.intact_of_bufferable hr]
      rfl

theorem Members.intact_of_bufferable {room : Nat} (members : Members) (h : members.bufferable room = true) :
    members.intact = true := by
  match members with
  | .closed => rfl
  | .broken => cases h
  | .cons k n r =>
      obtain ⟨hn, hr⟩ := Bool.and_eq_true_iff.mp h
      rw [Members.intact, n.intact_of_bufferable (Bool.and_eq_true_iff.mp hn).2, r.intact_of_bufferable hr]
      rfl

end

theorem Items.intact_ofList_broken (ns : List Node) : (Items.ofList .broken ns).intact = false := by
  induction ns with
  | nil => rfl
  | cons n ns ih => rw [ofList, intact, ih, Bool.and_false]

theorem Members.intact_ofList_broken (ms : List (Option String × Node)) :
    (Members.ofList .broken ms).intact = false := by
  induction ms with
  | nil => rfl
  | cons m ms ih => rw [ofList, intact, ih, Bool.and_false]

theorem Frame.intact_plug (under : Option Node) (f : Frame) : (f.plug under).intact = false := by
  cases f with
  | firstItem => exact Items.intact_ofList_broken _
  | item items => exact Items.intact_ofList_broken _
  | afterItem items => exact Items.intact_ofList_broken _
  | firstKey => rfl
  | key members => exact Members.intact_ofList_broken _
  | colon members k => exact Members.intact_ofList_broken _
  | value members k => exact Members.intact_ofList_broken _
  | afterValue members => exact Members.intact_ofList_broken _

theorem intact_plugAll_cons (under : Option Node) (f : Frame) (fs : List Frame) :
    (plugAll under (f :: fs)).intact = false := by
  induction fs generalizing under f with
  | nil => exact f.intact_plug under
  | cons g fs ih => exact ih (some (f.plug under)) g

theorem intact_plugAll {under : Option Node} (h : (plugAll under []).intact = false) (fs : List Frame) :
    (plugAll under fs).intact = false := by
  cases fs with
  | nil => exact h
  | cons f fs => exact intact_plugAll_cons under f fs

theorem intact_plugAll_none (fs : List Frame) : (plugAll none fs).intact = false :=
  intact_plugAll rfl fs

theorem intact_plugAll_broken (fs : List Frame) : (plugAll (some .broken) fs).intact = false :=
  intact_plugAll rfl fs

def Token.Plain : Token → Prop
  | .literal _ n => n.enclosed = false
  | _ => True

namespace State

def LedBy (c : Char) : State → Prop
  | .reading token _ => token.Plain
  | .finished n unread => n.enclosed = true → unread = [] ∧ c ≠ ' '

variable {c : Char}

theorem ledBy_fail {under : Option Node} {fs : List Frame} (h : (plugAll under fs).intact = false) :
    LedBy c (fail under fs) := by
  intro he
  rw [Node.not_enclosed_of_broken h] at he
  cases he

theorem ledBy_fail_none (fs : List Frame) : LedBy c (fail none fs) :=
  ledBy_fail (intact_plugAll_none fs)

theorem ledBy_fail_broken (fs : List Frame) : LedBy c (fail (some .broken) fs) :=
  ledBy_fail (intact_plugAll_broken fs)

theorem complete_cases (n : Node) (fs : List Frame) :
    complete n fs = .finished n [] ∨ (∃ gs, complete n fs = .reading .between gs) ∨
      ∃ m, m.enclosed = false ∧ complete n fs = .finished m [] := by
  cases fs with
  | nil => exact .inl rfl
  | cons f fs =>
      have hplug := Node.not_enclosed_of_broken (intact_plugAll_cons (some n) f fs)
      cases f with
      | firstItem => exact .inr (.inl ⟨_, rfl⟩)
      | item items => exact .inr (.inl ⟨_, rfl⟩)
      | value members k => exact .inr (.inl ⟨_, rfl⟩)
      | _ => exact .inr (.inr ⟨_, hplug, rfl⟩)

theorem ledBy_complete {n : Node} (h : n.enclosed = true → c ≠ ' ') (fs : List Frame) :
    LedBy c (complete n fs) := by
  rcases complete_cases n fs with hs | ⟨gs, hs⟩ | ⟨m, hm, hs⟩
  · rw [hs]
    exact fun he => ⟨rfl, h he⟩
  · rw [hs]
    trivial
  · rw [hs]
    intro he
    rw [hm] at he
    cases he

theorem ledBy_completeText (h : c ≠ ' ') (t : Option String) (fs : List Frame) :
    LedBy c (completeText t fs) := by
  unfold completeText
  split
  · trivial
  · trivial
  · exact ledBy_complete (fun _ => h) _

theorem ledBy_begin (fs : List Frame) : LedBy c (begin c fs) := by
  unfold begin
  split
  case h_4 | h_5 | h_6 => exact rfl
  case h_9 =>
    split
    · trivial
    · exact ledBy_fail_none fs
  all_goals trivial

theorem ledBy_punctuate (fs : List Frame) : LedBy c (punctuate c fs) := by
  unfold punctuate
  split
  · trivial
  · rename_i hb
    have hc : c ≠ ' ' := by
      rintro rfl
      exact hb rfl
    split
    case h_1 gs =>
      split
      · exact ledBy_complete (fun _ => hc) gs
      · exact ledBy_begin _
    case h_2 items gs =>
      split
      · trivial
      · split
        · exact ledBy_complete (fun _ => hc) gs
        · exact ledBy_fail_none _
    case h_3 gs =>
      split
      · exact ledBy_complete (fun _ => hc) gs
      · split
        · exact ledBy_begin _
        · exact ledBy_fail_none _
    case h_4 =>
      split
      · exact ledBy_begin _
      · exact ledBy_fail_none _
    case h_5 =>
      split
      · trivial
      · exact ledBy_fail_none _
    case h_6 members gs =>
      split
      · trivial
      · split
        · exact ledBy_complete (fun _ => hc) gs
        · exact ledBy_fail_none _
    case h_7 => exact ledBy_begin _

theorem ledBy_resume {n : Node} (h : n.enclosed = false) (fs : List Frame) :
    LedBy c (resume (complete n fs) c) := by
  rcases complete_cases n fs with hs | ⟨gs, hs⟩ | ⟨m, hm, hs⟩
  · rw [hs]
    intro he
    rw [h] at he
    cases he
  · rw [hs]
    exact ledBy_punctuate gs
  · rw [hs]
    intro he
    rw [hm] at he
    cases he

theorem ledBy_step {token : Token} (hp : token.Plain) (fs : List Frame) :
    LedBy c (step (.reading token fs) c) := by
  cases token with
  | between => exact ledBy_punctuate fs
  | literal due n =>
      have hn : n.enclosed = true → c ≠ ' ' := fun he => absurd (he.symm.trans hp) (by decide)
      match due with
      | [] => exact ledBy_resume hp fs
      | [d] =>
          simp only [step]
          split
          · exact ledBy_complete hn fs
          · exact ledBy_fail_broken fs
      | d :: e :: ds =>
          simp only [step]
          split
          · exact hp
          · exact ledBy_fail_broken fs
  | numeral part reversed =>
      simp only [step]
      split
      · trivial
      · split
        · exact ledBy_resume rfl fs
        · exact ledBy_fail_broken fs
  | string text =>
      simp only [step]
      split
      · rename_i hc
        exact ledBy_completeText (by rw [hc]; decide) _ fs
      · split
        · trivial
        · split
          · exact ledBy_fail_broken fs
          · trivial
  | escape text =>
      simp only [step]
      split
      · trivial
      · split
        · trivial
        · exact ledBy_fail_broken fs
  | unit text digits value =>
      simp only [step]
      split
      · split
        · trivial
        · trivial
      · exact ledBy_fail_broken fs

theorem enclosed_atEnd {token : Token} (hp : token.Plain) (fs : List Frame) :
    (atEnd (.reading token fs)).enclosed = false := by
  have hled : LedBy ' ' (step (.reading token fs) ' ') := ledBy_step hp fs
  unfold atEnd
  split
  · rename_i n unread hs
    rw [hs] at hled
    cases he : n.enclosed with
    | false => rfl
    | true => exact absurd rfl (hled he).2
  · exact Node.not_enclosed_of_broken (intact_plugAll_none _)
  · exact Node.not_enclosed_of_broken (intact_plugAll_broken _)

end State

/-- That a document is read from these characters, whatever comes after them, and nothing that shows its end is
read from fewer. -/
structure Extent (s : State) (n : Node) (used : List Char) : Prop where
  exact : ∀ more, readFrom s (used ++ more) = (n, more)
  shortest : ∀ part, part <+: used → part ≠ used → (readFrom s part).1.enclosed = false

theorem exists_extent_from {token : Token} (hp : token.Plain) {fs : List Frame} {cs rest : List Char}
    {n : Node} (h : readFrom (.reading token fs) cs = (n, rest)) (hn : n.enclosed = true) :
    ∃ used, cs = used ++ rest ∧ Extent (.reading token fs) n used := by
  -- the extent grows by the characters that reading goes on with, up to the one that finishes it
  induction cs generalizing token fs with
  | nil =>
      rw [readFrom] at h
      obtain ⟨rfl, -⟩ := Prod.mk.inj h
      rw [State.enclosed_atEnd hp fs] at hn
      cases hn
  | cons c cs ih =>
      have hnone : (readFrom (.reading token fs) []).1.enclosed = false := State.enclosed_atEnd hp fs
      have hled : State.LedBy c (State.step (.reading token fs) c) := State.ledBy_step hp fs
      rw [readFrom] at h
      cases hs : State.step (.reading token fs) c with
      | finished m unread =>
          rw [hs] at h hled
          obtain ⟨rfl, rfl⟩ := Prod.mk.inj h
          obtain ⟨rfl, -⟩ := hled hn
          refine ⟨[c], rfl, fun more => ?_, fun part hpart hne => ?_⟩
          · simp only [List.cons_append, List.nil_append, readFrom, hs]
          · rcases List.prefix_cons_iff.mp hpart with rfl | ⟨part, rfl, hnil⟩
            · exact hnone
            · exact absurd (congrArg (c :: ·) (List.prefix_nil.mp hnil)) hne
      | reading token' fs' =>
          rw [hs] at h hled
          obtain ⟨used, rfl, hu⟩ := ih hled h
          refine ⟨c :: used, rfl, fun more => ?_, fun part hpart hne => ?_⟩
          · simp only [List.cons_append, readFrom, hs]
            exact hu.exact more
          · rcases List.prefix_cons_iff.mp hpart with rfl | ⟨part, rfl, hless⟩
            · exact hnone
            · simp only [readFrom, hs]
              exact hu.shortest part hless fun heq => hne (congrArg (c :: ·) heq)

theorem exists_extent {cs : List Char} (hn : (read cs).1.enclosed = true) :
    ∃ used, cs = used ++ (read cs).2 ∧ Extent (.reading .between []) (read cs).1 used :=
  exists_extent_from (show Token.Plain .between from trivial) rfl hn

theorem Extent.read_append {n : Node} {used : List Char} (h : Extent (.reading .between []) n used)
    (more : List Char) : read (used ++ more) = (n, more) :=
  h.exact more

theorem Extent.read_eq {n : Node} {used : List Char} (h : Extent (.reading .between []) n used) :
    read used = (n, []) := by
  have hread := h.read_append []
  rwa [List.append_nil] at hread

end RunControl.Json
