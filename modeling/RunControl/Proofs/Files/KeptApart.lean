import RunControl.Proofs.Files.Trees

namespace RunControl.FileStorage

open Files

theorem place_pathFor (s : FileStorage) (key : String) :
    place (s.pathFor key) = below (place s.dir) (fileName key) :=
  place_join (isFileName_fileName key) s.dir

theorem place_pathFor_injective (s : FileStorage) :
    Function.Injective fun key => place (s.pathFor key) := by
  intro k l h
  simp only [place_pathFor] at h
  exact fileName_injective (below_inj h)

theorem names_pathFor (s : FileStorage) (key : String) :
    names (s.pathFor key) = names s.dir ++ [fileName key] :=
  names_join (isFileName_fileName key) s.dir

theorem names_pathFor_injective (s : FileStorage) :
    Function.Injective fun key => names (s.pathFor key) := by
  intro k l h
  simp only [names_pathFor] at h
  exact fileName_injective (List.singleton_inj.mp (List.append_cancel_left h))

def held? (s : FileStorage) (key : String) : Option String :=
  s.tree.text? (place (s.pathFor key))

variable {s : FileStorage} {key value text : String} {writes : List (String × String)}

theorem get?_eq_some : Storage.get? s key = some text ↔
    Fits s.dir (fileName key) ∧ s.tree.HasDirectory s.dir ∧ s.held? key = some text := by
  have hread : s.tree.readText (join s.dir (fileName key)) = .ok text ↔ _ :=
    Tree.readText_join_eq_ok (isFileName_fileName key)
  rw [held?, place_pathFor, ← hread]
  change (s.tree.readText (s.pathFor key)).toOption = some text ↔ _
  cases hr : s.tree.readText (s.pathFor key) with
  | error fault =>
      rw [show s.tree.readText (join s.dir (fileName key)) = _ from hr]
      exact ⟨nofun, nofun⟩
  | ok t =>
      rw [show s.tree.readText (join s.dir (fileName key)) = _ from hr]
      exact ⟨fun h => congrArg Except.ok (Option.some.inj h), fun h => congrArg some (Except.ok.inj h)⟩

def withTree (s : FileStorage) (tree : Tree) : FileStorage :=
  { s with tree }

inductive Wrote (s : FileStorage) (key value : String) : Except StorageFault Unit × FileStorage → Prop
  | failed {fault : StorageFault} {t : Tree} (grows : s.tree.Grows t) :
      Wrote s key value (.error fault, s.withTree t)
  | done {t : Tree} (grows : s.tree.Grows t) (fits : Fits s.dir (fileName key))
      (opened : t.HasDirectory s.dir) (free : t.entry? (place (s.pathFor key)) ≠ some .directory) :
      Wrote s key value (.ok (), s.withTree (t.put (place (s.pathFor key)) (.file value.toUTF8)))

theorem wrote_set (s : FileStorage) (key value : String) : Wrote s key value (Storage.set s key value) := by
  have hgrows := s.tree.grows_makeDirectories s.dir
  have hopened : (s.tree.makeDirectories s.dir).1 = .ok () →
      (s.tree.makeDirectories s.dir).2.HasDirectory s.dir := Tree.hasDirectory_makeDirectories
  change Wrote s key value (s.write key value)
  rw [write]
  rcases hmade : s.tree.makeDirectories s.dir with ⟨cause | _, t⟩
  · rw [hmade] at hgrows
    exact .failed hgrows
  · rw [hmade] at hgrows hopened
    simp only
    cases hw : t.writeBytes (s.pathFor key) value.toUTF8 with
    | error cause => exact .failed hgrows
    | ok u =>
        obtain ⟨hfits, -, hfree, rfl⟩ :=
          (Tree.writeBytes_join_eq_ok (isFileName_fileName key)).mp hw
        rw [← place_pathFor] at hfree ⊢
        exact .done hgrows hfits (hopened rfl) hfree

theorem dir_set (s : FileStorage) (key value : String) : (Storage.set s key value).2.dir = s.dir := by
  have h := s.wrote_set key value
  generalize Storage.set s key value = r at h
  cases h with
  | failed grows => rfl
  | done grows fits opened free => rfl

theorem hasDirectory_set (h : s.tree.HasDirectory s.dir) (key value : String) :
    (Storage.set s key value).2.tree.HasDirectory s.dir := by
  have hw := s.wrote_set key value
  generalize Storage.set s key value = r at hw
  cases hw with
  | failed grows => exact h.mono fun _ => grows.directory
  | done grows fits opened free => exact opened.mono fun _ => Tree.directory_put free _

theorem opened_of_ok (h : (Storage.set s key value).1.isOk = true) :
    Fits s.dir (fileName key) ∧ (Storage.set s key value).2.tree.HasDirectory s.dir := by
  have hw := s.wrote_set key value
  generalize Storage.set s key value = r at hw h
  cases hw with
  | failed grows => cases h
  | done grows fits opened free => exact ⟨fits, opened.mono fun _ => Tree.directory_put free _⟩

theorem held?_set (s : FileStorage) (key value l : String) : (Storage.set s key value).2.held? l =
    if key = l ∧ (Storage.set s key value).1.isOk then some value else s.held? l := by
  have hw := s.wrote_set key value
  generalize Storage.set s key value = r at hw
  cases hw with
  | failed grows =>
      rw [if_neg fun hn => Bool.false_ne_true hn.2]
      exact grows.text?_eq _
  | @done t grows fits opened free =>
      refine (Tree.text?_put free value (place (s.pathFor l))).trans ?_
      by_cases hl : key = l
      · rw [if_pos (by rw [hl]), if_pos ⟨hl, rfl⟩]
      · rw [if_neg fun hn => hl (s.place_pathFor_injective hn).symm, if_neg fun hn => hl hn.1]
        exact grows.text?_eq _

def sets (s : FileStorage) (writes : List (String × String)) : FileStorage :=
  writes.foldl (fun s w => (Storage.set s w.1 w.2).2) s

def latest? (s : FileStorage) (key : String) : List (String × String) → Option String
  | [] => none
  | (k, value) :: writes =>
      (latest? (Storage.set s k value).2 key writes).or
        (if k = key ∧ (Storage.set s k value).1.isOk then some value else none)

theorem dir_sets (s : FileStorage) (writes : List (String × String)) : (s.sets writes).dir = s.dir := by
  induction writes generalizing s with
  | nil => rfl
  | cons w writes ih => exact (ih (Storage.set s w.1 w.2).2).trans (s.dir_set w.1 w.2)

theorem hasDirectory_sets (h : s.tree.HasDirectory s.dir) (writes : List (String × String)) :
    (s.sets writes).tree.HasDirectory s.dir := by
  induction writes generalizing s with
  | nil => exact h
  | cons w writes ih =>
      have hset := hasDirectory_set h w.1 w.2
      rw [← s.dir_set w.1 w.2] at hset ⊢
      exact ih hset

theorem held?_sets (s : FileStorage) (writes : List (String × String)) (key : String) :
    (s.sets writes).held? key = (s.latest? key writes).or (s.held? key) := by
  induction writes generalizing s with
  | nil => exact Option.none_or.symm
  | cons w writes ih =>
      obtain ⟨k, value⟩ := w
      have hrest := ih (Storage.set s k value).2
      rw [held?_set] at hrest
      rw [latest?, Option.or_assoc]
      refine hrest.trans (congrArg _ ?_)
      split
      · exact Option.some_or.symm
      · exact Option.none_or.symm

theorem opened_of_latest? (h : s.latest? key writes = some value) :
    Fits s.dir (fileName key) ∧ (s.sets writes).tree.HasDirectory s.dir := by
  induction writes generalizing s with
  | nil => cases h
  | cons w writes ih =>
      obtain ⟨k, v⟩ := w
      have hdir := s.dir_set k v
      rw [latest?, Option.or_eq_some_iff] at h
      rcases h with h | ⟨-, h⟩
      · rw [← hdir]
        exact ih h
      · split at h
        · rename_i hok
          obtain ⟨hfits, hopened⟩ := opened_of_ok hok.2
          rw [hok.1] at hfits
          refine ⟨hfits, ?_⟩
          rw [← hdir] at hopened ⊢
          exact hasDirectory_sets hopened writes
        · cases h

theorem get?_sets_of_latest? (h : s.latest? key writes = some value) :
    Storage.get? (s.sets writes) key = some value := by
  obtain ⟨hfits, hopened⟩ := opened_of_latest? h
  rw [get?_eq_some, dir_sets, held?_sets, h]
  exact ⟨hfits, hopened, rfl⟩

/-- Whether nothing turns up in the directory of a storage by its being made. It is there already, or
it is not reached by way of a directory above, and nothing stands outside of directories. -/
def Tidy (s : FileStorage) : Prop :=
  s.tree.HasDirectory s.dir ∨ (s.tree.Grounded ∧ ".." ∉ names s.dir)

theorem Tidy.hasDirectory (h : s.Tidy) (hafter : (s.sets writes).tree.HasDirectory s.dir)
    (hheld : s.held? key = some text) : s.tree.HasDirectory s.dir := by
  rcases h with h | ⟨hgrounded, hpoints⟩
  · exact h
  · have hfile : s.tree.entry? (below (place s.dir) (fileName key)) ≠ none := by
      intro hn
      rw [held?, place_pathFor, Tree.text?, hn] at hheld
      cases hheld
    have hplace := hgrounded _ _ (isFileName_fileName key).no_slash hfile
    have hfollow := (Tree.hasDirectory_iff.mp hafter).1
    have hnames : ∀ c ∈ names s.dir, '/' ∉ c.toList ∧ c ≠ ".." ∧ c.utf8ByteSize ≤ 255 := by
      intro c hc
      have hne : c ≠ ".." := by
        rintro rfl
        exact hpoints hc
      exact ⟨notMem_of_mem_names hc, hne, Tree.short_of_follow hfollow hc hne⟩
    exact Tree.hasDirectory_iff.mpr ⟨hgrounded.follow hnames hplace, hplace⟩

theorem Tidy.get?_sets (h : s.Tidy) (writes : List (String × String)) (key : String) :
    Storage.get? (s.sets writes) key = (s.latest? key writes).or (Storage.get? s key) := by
  cases hl : s.latest? key writes with
  | some value => exact get?_sets_of_latest? hl
  | none =>
      rw [Option.none_or]
      ext text
      rw [get?_eq_some, get?_eq_some, dir_sets, held?_sets, hl, Option.none_or]
      constructor
      · rintro ⟨hfits, hafter, hheld⟩
        exact ⟨hfits, h.hasDirectory hafter hheld, hheld⟩
      · rintro ⟨hfits, hopened, hheld⟩
        exact ⟨hfits, hasDirectory_sets hopened writes, hheld⟩

structure KeepsApart (s : FileStorage) : Prop where
  injective : Function.Injective s.pathFor ∧ Function.Injective fun key => names (s.pathFor key)
  spelled : ∀ key, ∃ cs, Spelled cs ∧ (fileName key).toList = cs ++ ".json".toList
  inside : ∀ key, IsFileName (fileName key) ∧ start (s.pathFor key) = start s.dir ∧
    names (s.pathFor key) = names s.dir ++ [fileName key]
  located : ∀ (t : Tree) key loc, t.locate (s.pathFor key) = .ok loc →
    t.HasDirectory s.dir ∧ loc = below (place s.dir) (fileName key)
  reads : ∀ key text, Storage.get? s key = some text ↔
    Fits s.dir (fileName key) ∧ s.tree.HasDirectory s.dir ∧ s.held? key = some text
  held : ∀ writes key, (s.sets writes).held? key = (s.latest? key writes).or (s.held? key)
  readBack : ∀ writes key value, s.latest? key writes = some value →
    Storage.get? (s.sets writes) key = some value
  got : s.Tidy → ∀ writes key,
    Storage.get? (s.sets writes) key = (s.latest? key writes).or (Storage.get? s key)

theorem keepsApart (s : FileStorage) : s.KeepsApart where
  injective := by
    have hnames := s.names_pathFor_injective
    exact ⟨fun _ _ h => hnames (congrArg names h), hnames⟩
  spelled key := ⟨_, spelled_flatMap _, toList_fileName key⟩
  inside key :=
    ⟨isFileName_fileName key, start_join (isFileName_fileName key) s.dir, s.names_pathFor key⟩
  located _ key _ h := ((Tree.locate_join_eq_ok (isFileName_fileName key)).mp h).2
  reads _ _ := get?_eq_some
  held := s.held?_sets
  readBack _ _ _ := get?_sets_of_latest?
  got h := h.get?_sets

theorem keepsApart_lookalikes :
    let s : FileStorage := ⟨"saved", .empty⟩
    let writes := [("a/b", "1"), ("..", "2"), ("a%2Fb", "3"), ("a/b", "4")]
    s.Tidy ∧ s.KeepsApart ∧
      ["a/b", "..", "a%2Fb", "a_b"].map (Storage.get? (s.sets writes)) =
        [some "4", some "2", some "3", none] := by
  intro s writes
  have htidy : s.Tidy := .inr ⟨Tree.grounded_empty, by decide +kernel⟩
  have h := keepsApart s
  refine ⟨htidy, h, ?_⟩
  have hgot := h.got htidy writes
  simp only [List.map_cons, List.map_nil, hgot]
  decide +kernel

end RunControl.FileStorage
