import Mathlib.Data.List.Induction
import RunControl.Proofs.Files.Places

namespace RunControl.Files.Tree

theorem entry?_put (t : Tree) (loc l : Location) (e : Entry) : entry? (t.put loc e) l =
    if l = root ∨ l = here then some .directory else if l = loc then some e else t.entry? l := by
  simp only [put, Table.get?_insert, entry?]
  split <;> rfl

theorem entry?_start (t : Tree) (path : String) : t.entry? (start path) = some .directory := by
  rw [start]
  split
  · exact if_pos (.inl rfl)
  · exact if_pos (.inr rfl)

def text? (t : Tree) (loc : Location) : Option String :=
  match t.entry? loc with
  | some (.file bytes) => Text.Utf8.decode? bytes
  | _ => none

theorem entry?_put_of_ne (t : Tree) {loc l : Location} (hl : l ≠ loc) (e : Entry) :
    entry? (t.put loc e) l = t.entry? l := by
  rw [entry?_put, if_neg hl, entry?]
  split <;> rfl

section

variable {t : Tree} {loc : Location} (h : t.entry? loc ≠ some .directory)

include h

theorem entry?_put_self (e : Entry) : entry? (t.put loc e) loc = some e := by
  rw [entry?_put, if_neg, if_pos rfl]
  exact fun hbase => h (if_pos hbase)

theorem text?_put (text : String) (l : Location) :
    (t.put loc (.file text.toUTF8)).text? l = if l = loc then some text else t.text? l := by
  by_cases hl : l = loc
  · rw [if_pos hl, hl, text?, entry?_put_self h]
    exact Text.Utf8.decode?_toUTF8 text
  · rw [if_neg hl, text?, text?, t.entry?_put_of_ne hl]

theorem directory_put (bytes : ByteArray) {l : Location} (hl : t.entry? l = some .directory) :
    entry? (t.put loc (.file bytes)) l = some .directory := by
  have hne : l ≠ loc := by
    rintro rfl
    exact h hl
  rw [t.entry?_put_of_ne hne, hl]

end

def Grows (t u : Tree) : Prop :=
  ∀ loc, u.entry? loc = t.entry? loc ∨ t.entry? loc = none ∧ u.entry? loc = some .directory

variable {t u v : Tree} {base loc : Location} {cs : List String}

theorem Grows.refl (t : Tree) : Grows t t :=
  fun _ => .inl rfl

theorem Grows.trans (h : Grows t u) (h' : Grows u v) : Grows t v := by
  intro loc
  rcases h' loc with hv | ⟨hu, hv⟩
  · rw [hv]
    exact h loc
  · rcases h loc with ht | ⟨-, hu'⟩
    · exact .inr ⟨ht.symm.trans hu, hv⟩
    · rw [hu'] at hu
      cases hu

theorem grows_put (h : t.entry? loc = none) : Grows t (t.put loc .directory) := by
  have hne : t.entry? loc ≠ some .directory := by
    rw [h]
    exact nofun
  intro l
  by_cases hl : l = loc
  · rw [hl]
    exact .inr ⟨h, entry?_put_self hne _⟩
  · exact .inl (t.entry?_put_of_ne hl _)

theorem Grows.directory (h : Grows t u) (hl : t.entry? loc = some .directory) :
    u.entry? loc = some .directory := by
  rcases h loc with hu | ⟨-, hu⟩
  · rw [hu, hl]
  · exact hu

theorem Grows.text?_eq (h : Grows t u) (loc : Location) : u.text? loc = t.text? loc := by
  rw [text?, text?]
  rcases h loc with hu | ⟨ht, hu⟩
  · rw [hu]
  · rw [ht, hu]

theorem follow_mono (h : ∀ l, t.entry? l = some .directory → u.entry? l = some .directory)
    (hf : t.follow base cs = .ok loc) : u.follow base cs = .ok loc := by
  induction cs generalizing base with
  | nil => exact hf
  | cons c cs ih =>
      obtain ⟨he, hshort, hrest⟩ := follow_cons_eq_ok.mp hf
      exact follow_cons_eq_ok.mpr ⟨h base he, hshort, ih hrest⟩

theorem findDirectory_mono (h : ∀ l, t.entry? l = some .directory → u.entry? l = some .directory)
    (hf : t.findDirectory base cs = .ok loc) : u.findDirectory base cs = .ok loc := by
  obtain ⟨hl, he⟩ := findDirectory_eq_ok.mp hf
  exact findDirectory_eq_ok.mpr ⟨follow_mono h hl, h loc he⟩

structure Makes (t : Tree) (base : Location) (cs : List String) (r : Except Fault Location × Tree) : Prop where
  grows : Grows t r.2
  found : ∀ loc, r.1 = .ok loc → r.2.findDirectory base cs = .ok loc

theorem makes_settle (t : Tree) (base : Location) (reversed : List String) :
    Makes t base reversed.reverse (t.settle base reversed) := by
  rw [settle]
  cases hf : t.follow base reversed.reverse with
  | error fault => exact ⟨.refl t, nofun⟩
  | ok l =>
      simp only
      split
      · rename_i he
        have hgrows := grows_put he
        have hne : t.entry? l ≠ some .directory := by
          rw [he]
          exact nofun
        refine ⟨hgrows, fun loc hloc => ?_⟩
        cases hloc
        exact findDirectory_eq_ok.mpr
          ⟨follow_mono (fun _ => hgrows.directory) hf, entry?_put_self hne _⟩
      · rename_i he
        refine ⟨.refl t, fun loc hloc => ?_⟩
        cases hloc
        exact findDirectory_eq_ok.mpr ⟨hf, he⟩
      · exact ⟨.refl t, fun loc hloc => nomatch hloc⟩

theorem makes_settleAll (hbase : t.entry? base = some .directory) (reversed : List String) :
    Makes t base reversed.reverse (t.settleAll base reversed) := by
  induction reversed with
  | nil =>
      refine ⟨.refl t, ?_⟩
      rintro loc ⟨⟩
      exact findDirectory_eq_ok.mpr ⟨rfl, hbase⟩
  | cons name above ih =>
      have hsettle := t.makes_settle base (name :: above)
      rw [settleAll]
      split
      · -- The directory above is missing, so it is made before.
        rcases hall : t.settleAll base above with ⟨fault | l, u⟩
        · rw [hall] at ih
          exact ⟨ih.grows, nofun⟩
        · rw [hall] at ih
          have hlast := u.makes_settle l [name]
          have habove := (findDirectory_eq_ok.mp (ih.found l rfl)).1
          refine ⟨ih.grows.trans hlast.grows, fun loc hloc => ?_⟩
          obtain ⟨hfollow, hdir⟩ := findDirectory_eq_ok.mp (hlast.found loc hloc)
          refine findDirectory_eq_ok.mpr ⟨?_, hdir⟩
          rw [List.reverse_cons, follow_append, follow_mono (fun _ => hlast.grows.directory) habove]
          exact hfollow
      · exact hsettle

theorem makes_settleAbove (hbase : t.entry? base = some .directory) (reversed : List String) :
    Makes t base reversed.reverse (t.settleAbove base reversed) := by
  rw [settleAbove]
  split
  · have hall := makes_settleAll hbase reversed.tail
    rcases hr : t.settleAll base reversed.tail with ⟨fault | l, u⟩
    · rw [hr] at hall
      exact ⟨hall.grows, nofun⟩
    · rw [hr] at hall
      exact ⟨hall.grows, fun _ hloc => hloc⟩
  · exact ⟨.refl t, fun _ hloc => hloc⟩

theorem exists_makes (t : Tree) {path : String} (h : refusal? path = none) :
    ∃ r, Makes t (start path) (names path) r ∧ t.makeDirectories path = (r.1.map fun _ => (), r.2) := by
  have hbase := t.entry?_start path
  have habove := makes_settleAbove hbase (names path).reverse
  have hall := makes_settleAll hbase (names path).reverse
  rw [List.reverse_reverse] at habove hall
  rw [makeDirectories, h]
  cases endsInPoint path with
  | true => exact ⟨_, habove, rfl⟩
  | false => exact ⟨_, hall, rfl⟩

theorem grows_makeDirectories (t : Tree) (path : String) : Grows t (t.makeDirectories path).2 := by
  cases h : refusal? path with
  | some fault =>
      rw [makeDirectories, h]
      exact .refl t
  | none =>
      obtain ⟨r, hmakes, heq⟩ := t.exists_makes h
      rw [heq]
      exact hmakes.grows

theorem hasDirectory_makeDirectories {path : String} (hok : (t.makeDirectories path).1 = .ok ()) :
    (t.makeDirectories path).2.HasDirectory path := by
  cases h : refusal? path with
  | some fault =>
      rw [makeDirectories, h] at hok
      cases hok
  | none =>
      obtain ⟨⟨_ | loc, u⟩, hmakes, heq⟩ := t.exists_makes h
      · rw [heq] at hok
        cases hok
      · rw [heq]
        exact hasDirectory_of_findDirectory (hmakes.found loc rfl)

theorem HasDirectory.mono {dir : String}
    (h : ∀ l, t.entry? l = some .directory → u.entry? l = some .directory) (hd : t.HasDirectory dir) :
    u.HasDirectory dir :=
  findDirectory_mono h hd

section

variable {dir file : String} (h : IsFileName file)

include h

theorem readText_join_eq_ok {text : String} : t.readText (join dir file) = .ok text ↔
    Fits dir file ∧ t.HasDirectory dir ∧ t.text? (below (place dir) file) = some text := by
  rw [readText, readBytes, meansDirectory_join h]
  rcases t.locate_join_cases dir h with ⟨hl, hfits, hdir⟩ | ⟨⟨fault, hl⟩, hn⟩
  · simp only [hl, hfits, hdir, true_and, text?]
    rcases t.entry? (below (place dir) file) with _ | _ | bytes
    · simp
    · simp
    · cases hd : Text.Utf8.decode? bytes <;> simp [hd]
  · rw [hl]
    exact ⟨nofun, fun hy => absurd ⟨hy.1, hy.2.1⟩ hn⟩

theorem writeBytes_join_eq_ok {bytes : ByteArray} : t.writeBytes (join dir file) bytes = .ok u ↔
    Fits dir file ∧ t.HasDirectory dir ∧ t.entry? (below (place dir) file) ≠ some .directory ∧
      u = t.put (below (place dir) file) (.file bytes) := by
  rw [writeBytes, meansDirectory_join h]
  rcases t.locate_join_cases dir h with ⟨hl, hfits, hdir⟩ | ⟨⟨fault, hl⟩, hn⟩
  · simp only [hl, hfits, hdir, true_and]
    rcases t.entry? (below (place dir) file) with _ | _ | old
    · simp [eq_comm]
    · simp
    · simp [eq_comm]
  · rw [hl]
    exact ⟨nofun, fun hy => absurd ⟨hy.1, hy.2.1⟩ hn⟩

end

def Grounded (t : Tree) : Prop :=
  ∀ loc name, '/' ∉ name.toList → t.entry? (below loc name) ≠ none → t.entry? loc = some .directory

theorem grounded_empty : empty.Grounded := by
  intro loc name _ hn
  have hslash : '/' ∈ (below loc name).toList := by
    simp [below, String.toList_append]
  have hne : ¬(below loc name = root ∨ below loc name = here) := by
    rintro (hb | hb)
    · rw [hb] at hslash
      exact absurd hslash (by decide)
    · rw [hb] at hslash
      exact absurd hslash (by decide)
  exact absurd (if_neg hne) hn

theorem Grounded.follow (h : t.Grounded)
    (hnames : ∀ c ∈ cs, '/' ∉ c.toList ∧ c ≠ ".." ∧ c.utf8ByteSize ≤ 255)
    (he : t.entry? (placeFrom base cs) = some .directory) :
    t.follow base cs = .ok (placeFrom base cs) := by
  induction cs using List.reverseRecOn with
  | nil => rfl
  | append_singleton cs c ih =>
      obtain ⟨hslash, hpoints, hshort⟩ := hnames c (List.mem_append_right cs List.mem_cons_self)
      rw [placeFrom_concat hpoints] at he ⊢
      have habove : t.entry? (placeFrom base cs) = some .directory := by
        apply h _ c hslash
        rw [he]
        exact nofun
      have hfollow := ih (fun d hd => hnames d (List.mem_append_left [c] hd)) habove
      exact (follow_concat_eq_ok hpoints).mpr ⟨_, hfollow, habove, hshort, rfl⟩

theorem short_of_follow (h : t.follow base cs = .ok loc) {c : String} (hc : c ∈ cs) (hpoints : c ≠ "..") :
    c.utf8ByteSize ≤ 255 := by
  induction cs generalizing base with
  | nil => cases hc
  | cons d cs ih =>
      obtain ⟨-, hshort, hrest⟩ := follow_cons_eq_ok.mp h
      rcases List.mem_cons.mp hc with rfl | hc
      · exact hshort hpoints
      · exact ih hrest hc

end RunControl.Files.Tree
