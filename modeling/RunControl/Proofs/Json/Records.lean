import RunControl.Json.Decoder

namespace RunControl.Json

section

variable {ε α β : Type}

theorem map_eq_ok_iff {x : Except ε α} {f : α → β} {b : β} :
    x.map f = .ok b ↔ ∃ a, x = .ok a ∧ f a = b := by
  cases x with
  | error e => simp [Except.map]
  | ok a => simp [Except.map]

theorem bind_eq_ok_iff {x : Except ε α} {f : α → Except ε β} {b : β} :
    x.bind f = .ok b ↔ ∃ a, x = .ok a ∧ f a = .ok b := by
  cases x with
  | error e => simp [Except.bind]
  | ok a => simp [Except.bind]

theorem within_eq_ok_iff {seg : Segment} {r : Except Fault α} {a : α} :
    within seg r = .ok a ↔ r = .ok a := by
  cases r with
  | error e => exact ⟨nofun, nofun⟩
  | ok b => exact Iff.rfl

end

namespace Record

variable {α β : Type}

theorem build_map_eq_ok_iff {f : α → β} {r : Record α} {s : Slots} {b : β} :
    (f <$> r).build s = .ok b ↔ ∃ a, r.build s = .ok a ∧ f a = b :=
  map_eq_ok_iff

theorem build_seq_eq_ok_iff {q : Record (α → β)} {r : Record α} {s : Slots} {b : β} :
    (q <*> r).build s = .ok b ↔ ∃ f a, q.build s = .ok f ∧ r.build s = .ok a ∧ f a = b := by
  change ((q.build s).bind fun f => (r.build s).bind fun a => .ok (f a)) = .ok b ↔ _
  simp only [bind_eq_ok_iff, Except.ok.injEq, exists_and_left]

theorem decode_map_eq_ok_iff {r : Record α} {expected : String} {strict : Bool} {members : Members} {a : α} :
    r.decode expected strict (.map members) = .ok a ↔
      ∃ found, collect r.fields strict [] members = .ok found ∧
        r.build ⟨expected, r.fields.map Field.name, false, found⟩ = .ok a :=
  bind_eq_ok_iff

theorem decode_seq_eq_ok_iff {r : Record α} {expected : String} {strict : Bool} {items : Items} {a : α} :
    r.decode expected strict (.seq items) = .ok a ↔
      ∃ found, place 0 [] r.fields items = .ok (found, .closed) ∧
        r.build ⟨expected, r.fields.map Field.name, true, found⟩ = .ok a := by
  constructor
  · intro h
    obtain ⟨⟨found, rest⟩, hfound, h⟩ := bind_eq_ok_iff.mp h
    obtain ⟨b, hbuild, hrest⟩ := bind_eq_ok_iff.mp h
    cases rest with
    | closed =>
        cases hrest
        exact ⟨found, hfound, hbuild⟩
    | broken => cases hrest
    | cons n r => cases hrest
  · rintro ⟨found, hfound, hbuild⟩
    exact bind_eq_ok_iff.mpr ⟨(found, .closed), hfound, bind_eq_ok_iff.mpr ⟨a, hbuild, rfl⟩⟩

theorem place_cons_eq_ok_iff {i : Nat} {found r : List (String × Node)} {f : Field} {fields : List Field}
    {n : Node} {items rest : Items} :
    place i found (f :: fields) (.cons n items) = .ok (r, rest) ↔
      f.check n = .ok () ∧ place (i + 1) ((f.name, n) :: found) fields items = .ok (r, rest) := by
  rw [place]
  cases f.check n with
  | error e => exact ⟨nofun, nofun⟩
  | ok u => exact ⟨fun h => ⟨rfl, h⟩, fun h => h.2⟩

end Record

end RunControl.Json
