import RunControl.Proofs.Files.Spelling

namespace RunControl.Files

theorem exists_splitSlash (cs : List Char) : ∃ p ps, splitSlash cs = p :: ps := by
  induction cs with
  | nil => exact ⟨[], [], rfl⟩
  | cons c cs ih =>
      obtain ⟨p, ps, hs⟩ := ih
      rw [splitSlash, hs]
      split
      · exact ⟨[], p :: ps, rfl⟩
      · exact ⟨c :: p, ps, rfl⟩

theorem splitSlash_append_slash (cs ds : List Char) :
    splitSlash (cs ++ '/' :: ds) = splitSlash cs ++ splitSlash ds := by
  induction cs with
  | nil => rfl
  | cons c cs ih =>
      obtain ⟨p, ps, hs⟩ := exists_splitSlash cs
      rw [List.cons_append, splitSlash, splitSlash, ih, hs]
      split
      · rfl
      · rfl

theorem splitSlash_of_notMem {cs : List Char} (h : '/' ∉ cs) : splitSlash cs = [cs] := by
  induction cs with
  | nil => rfl
  | cons c cs ih =>
      obtain ⟨hc, hcs⟩ := List.ne_and_not_mem_of_not_mem_cons h
      rw [splitSlash, if_neg hc.symm, ih hcs]

theorem notMem_of_mem_splitSlash {cs p : List Char} (h : p ∈ splitSlash cs) : '/' ∉ p := by
  induction cs generalizing p with
  | nil =>
      rw [List.mem_singleton.mp h]
      exact List.not_mem_nil
  | cons c cs ih =>
      obtain ⟨q, qs, hs⟩ := exists_splitSlash cs
      rw [splitSlash, hs] at h
      rw [hs] at ih
      split at h
      · rcases List.mem_cons.mp h with rfl | hp
        · exact List.not_mem_nil
        · exact ih hp
      · rename_i hc
        rcases List.mem_cons.mp h with rfl | hp
        · exact List.not_mem_cons_of_ne_of_not_mem (Ne.symm hc) (ih List.mem_cons_self)
        · exact ih (List.mem_cons_of_mem q hp)

theorem toList_join (dir file : String) :
    (dir = "" ∧ join dir file = file) ∨
      ∃ cs, (join dir file).toList = cs ++ '/' :: file.toList ∧
        (dir.toList = cs ++ ['/'] ∨ (dir.toList = cs ∧ cs ≠ [])) := by
  rw [join]
  by_cases he : dir = ""
  · subst he
    exact .inl ⟨rfl, String.empty_append⟩
  · refine .inr ?_
    have hne : dir.toList ≠ [] := fun hn => he (String.toList_eq_nil_iff.mp hn)
    have hempty : dir.isEmpty = false := by
      rw [Bool.eq_false_iff]
      exact fun hn => he (String.isEmpty_iff.mp hn)
    rw [hempty, Bool.false_or]
    split
    · rename_i hlast
      obtain ⟨cs, hcs⟩ := List.getLast?_eq_some_iff.mp (eq_of_beq hlast)
      refine ⟨cs, ?_, .inl hcs⟩
      rw [String.toList_append, hcs, List.append_assoc, List.singleton_append]
    · refine ⟨dir.toList, ?_, .inr ⟨rfl, hne⟩⟩
      rw [String.toList_append, String.toList_append, List.append_assoc]
      rfl

def pieces (cs : List Char) : List String :=
  ((splitSlash cs).map String.ofList).filter fun s => !(s.isEmpty || s == ".")

theorem names_eq (path : String) : names path = pieces path.toList :=
  rfl

theorem pieces_append_slash (cs ds : List Char) : pieces (cs ++ '/' :: ds) = pieces cs ++ pieces ds := by
  rw [pieces, splitSlash_append_slash, List.map_append, List.filter_append]
  rfl

theorem notMem_of_mem_names {path name : String} (h : name ∈ names path) : '/' ∉ name.toList := by
  obtain ⟨p, hp, rfl⟩ := List.mem_map.mp (List.mem_filter.mp h).1
  rw [String.toList_ofList]
  exact notMem_of_mem_splitSlash hp

section

variable {dir file : String} (h : IsFileName file)

include h

theorem IsFileName.pieces_eq : pieces file.toList = [file] := by
  have hkept : (!(file.isEmpty || file == ".")) = true := by simp [h.ne_empty, h.ne_point]
  rw [pieces, splitSlash_of_notMem h.no_slash, List.map_singleton, String.ofList_toList]
  exact List.filter_cons_of_pos hkept

theorem IsFileName.toList_ne_nil : file.toList ≠ [] :=
  fun hn => h.ne_empty (String.toList_eq_nil_iff.mp hn)

theorem names_join (dir : String) : names (join dir file) = names dir ++ [file] := by
  rcases toList_join dir file with ⟨rfl, hj⟩ | ⟨cs, hj, hdir⟩
  · rw [hj]
    exact h.pieces_eq
  · rw [names_eq, names_eq, hj, pieces_append_slash, h.pieces_eq]
    rcases hdir with hdir | ⟨hdir, -⟩
    · rw [hdir, pieces_append_slash, show pieces [] = [] from rfl, List.append_nil]
    · rw [hdir]

theorem start_join (dir : String) : start (join dir file) = start dir := by
  rcases toList_join dir file with ⟨rfl, hj⟩ | ⟨cs, hj, hdir⟩
  · have hhead : file.toList.head? ≠ some '/' := by
      intro hn
      exact h.no_slash (List.mem_of_mem_head? hn)
    rw [hj, start, start, if_neg (by simpa using hhead)]
    rfl
  · rw [start, start, hj]
    rcases hdir with hdir | ⟨hdir, hne⟩
    · rw [hdir]
      cases cs <;> rfl
    · rw [hdir]
      cases cs with
      | nil => exact absurd rfl hne
      | cons c cs => rfl

theorem meansDirectory_join (dir : String) : meansDirectory (join dir file) = false := by
  have hlast : (splitSlash (join dir file).toList).getLast? = some file.toList := by
    rcases toList_join dir file with ⟨rfl, hj⟩ | ⟨cs, hj, -⟩
    · rw [hj, splitSlash_of_notMem h.no_slash]
      rfl
    · rw [hj, splitSlash_append_slash, splitSlash_of_notMem h.no_slash, List.getLast?_concat]
  have hpoint : file.toList ≠ ['.'] := fun hn => h.ne_point (String.toList_injective hn)
  simp only [meansDirectory, hlast]
  simp [h.toList_ne_nil, hpoint]

theorem join_ne_empty (dir : String) : join dir file ≠ "" := by
  intro hn
  have hnames := names_join h dir
  rw [hn] at hnames
  exact List.append_ne_nil_of_right_ne_nil _ (List.cons_ne_nil file []) hnames.symm

end

def placeFrom (base : Location) (cs : List String) : Location :=
  cs.foldl (fun loc c => if c = ".." then above loc else below loc c) base

def place (path : String) : Location :=
  placeFrom (start path) (names path)

theorem placeFrom_concat {c : String} (hc : c ≠ "..") (base : Location) (cs : List String) :
    placeFrom base (cs ++ [c]) = below (placeFrom base cs) c := by
  rw [placeFrom, List.foldl_append]
  exact if_neg hc

theorem place_join {file : String} (h : IsFileName file) (dir : String) :
    place (join dir file) = below (place dir) file := by
  rw [place, start_join h, names_join h, placeFrom_concat h.ne_points]
  rfl

theorem below_inj {loc : Location} {a b : String} (h : below loc a = below loc b) : a = b := by
  have hlist := congrArg String.toList h
  simp only [below, String.toList_append, List.append_assoc, List.append_cancel_left_eq] at hlist
  exact String.toList_injective hlist

structure Fits (dir file : String) : Prop where
  unrefused : Tree.refusal? (join dir file) = none
  short : file.utf8ByteSize ≤ 255

namespace Tree

variable {t : Tree} {base loc : Location} {cs : List String}

theorem follow_cons_eq_ok {c : String} :
    t.follow base (c :: cs) = .ok loc ↔ t.entry? base = some .directory ∧
      (c ≠ ".." → c.utf8ByteSize ≤ 255) ∧
      t.follow (if c = ".." then above base else below base c) cs = .ok loc := by
  rw [follow]
  rcases t.entry? base with _ | _ | bytes
  · simp
  · by_cases hc : c = ".."
    · simp [hc]
    · by_cases hlong : 255 < c.utf8ByteSize
      · simp [hc, hlong, Nat.not_le.mpr hlong]
      · simp [hc, hlong, Nat.not_lt.mp hlong]
  · simp

theorem follow_append (t : Tree) (base : Location) (cs ds : List String) :
    t.follow base (cs ++ ds) = (t.follow base cs).bind fun l => t.follow l ds := by
  induction cs generalizing base with
  | nil => rfl
  | cons c cs ih =>
      rw [List.cons_append, follow, follow]
      rcases t.entry? base with _ | _ | bytes
      · rfl
      · simp only
        split
        · exact ih _
        · split
          · rfl
          · exact ih _
      · rfl

theorem follow_concat_eq_ok {c : String} (hc : c ≠ "..") :
    t.follow base (cs ++ [c]) = .ok loc ↔ ∃ l, t.follow base cs = .ok l ∧
      t.entry? l = some .directory ∧ c.utf8ByteSize ≤ 255 ∧ loc = below l c := by
  rw [follow_append]
  cases t.follow base cs with
  | error fault => simp [Except.bind]
  | ok l =>
      change t.follow l [c] = .ok loc ↔ _
      rw [follow_cons_eq_ok, if_neg hc, follow]
      constructor
      · rintro ⟨he, hshort, hloc⟩
        exact ⟨l, rfl, he, hshort hc, (Except.ok.inj hloc).symm⟩
      · rintro ⟨m, hm, he, hshort, rfl⟩
        cases hm
        exact ⟨he, fun _ => hshort, rfl⟩

theorem eq_placeFrom_of_follow (h : t.follow base cs = .ok loc) : loc = placeFrom base cs := by
  induction cs generalizing base with
  | nil => exact (Except.ok.inj h).symm
  | cons c cs ih => exact ih (follow_cons_eq_ok.mp h).2.2

theorem findDirectory_eq_ok : t.findDirectory base cs = .ok loc ↔
    t.follow base cs = .ok loc ∧ t.entry? loc = some .directory := by
  rw [findDirectory]
  cases t.follow base cs with
  | error fault => simp
  | ok l =>
      constructor
      · intro h
        simp only at h
        split at h
        · cases h
        · cases h
        · rename_i hl
          cases h
          exact ⟨rfl, hl⟩
      · rintro ⟨hl, he⟩
        cases hl
        simp [he]

def HasDirectory (t : Tree) (dir : String) : Prop :=
  t.findDirectory (start dir) (names dir) = .ok (place dir)

theorem hasDirectory_iff {dir : String} : t.HasDirectory dir ↔
    t.follow (start dir) (names dir) = .ok (place dir) ∧ t.entry? (place dir) = some .directory :=
  findDirectory_eq_ok

theorem hasDirectory_of_findDirectory {dir : String}
    (h : t.findDirectory (start dir) (names dir) = .ok loc) : t.HasDirectory dir := by
  have hloc : loc = place dir := eq_placeFrom_of_follow (findDirectory_eq_ok.mp h).1
  rw [hloc] at h
  exact h

theorem locate_join_eq_ok {dir file : String} (h : IsFileName file) :
    t.locate (join dir file) = .ok loc ↔
      Fits dir file ∧ t.HasDirectory dir ∧ loc = below (place dir) file := by
  have hempty : (join dir file).isEmpty = false := by
    rw [Bool.eq_false_iff]
    exact fun hn => join_ne_empty h dir (String.isEmpty_iff.mp hn)
  rw [locate, hempty, if_neg Bool.false_ne_true, start_join h, names_join h]
  cases hr : refusal? (join dir file) with
  | some fault =>
      constructor
      · intro hn
        cases hn
      · rintro ⟨hfits, -⟩
        rw [hfits.unrefused] at hr
        cases hr
  | none =>
      simp only [follow_concat_eq_ok h.ne_points, hasDirectory_iff]
      constructor
      · rintro ⟨l, hl, he, hshort, rfl⟩
        obtain rfl : l = place dir := eq_placeFrom_of_follow hl
        exact ⟨⟨hr, hshort⟩, ⟨hl, he⟩, rfl⟩
      · rintro ⟨hfits, ⟨hl, he⟩, rfl⟩
        exact ⟨place dir, hl, he, hfits.short, rfl⟩

theorem locate_join_cases (t : Tree) (dir : String) {file : String} (h : IsFileName file) :
    (t.locate (join dir file) = .ok (below (place dir) file) ∧ Fits dir file ∧ t.HasDirectory dir) ∨
      (∃ fault, t.locate (join dir file) = .error fault) ∧ ¬(Fits dir file ∧ t.HasDirectory dir) := by
  cases hl : t.locate (join dir file) with
  | ok loc =>
      obtain ⟨hfits, hdir, rfl⟩ := (locate_join_eq_ok h).mp hl
      exact .inl ⟨rfl, hfits, hdir⟩
  | error fault =>
      refine .inr ⟨⟨fault, rfl⟩, fun hn => ?_⟩
      rw [(locate_join_eq_ok h).mpr ⟨hn.1, hn.2, rfl⟩] at hl
      cases hl

end Tree

end RunControl.Files
