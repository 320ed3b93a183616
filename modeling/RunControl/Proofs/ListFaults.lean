import RunControl.Error
import RunControl.Listing
import RunControl.Breakpoint
import RunControl.Proofs.Json.Nesting
import RunControl.Proofs.Json.Settled

namespace RunControl

open Json Json.Record

namespace Json

def Path.textFrom (i : Nat) : Path → String
  | [] => s!"[{i}]"
  | .index k :: rest => s!"[{i}]" ++ Path.text (.index k :: rest)
  | .name s :: rest => s!"[{i}]" ++ "." ++ Path.text (.name s :: rest)

def Path.extend (before : String) : Segment → String
  | .index n => before ++ s!"[{n}]"
  | .name s => before ++ "." ++ s

theorem Path.foldl_extend_append (rest : Path) (before acc : String) :
    rest.foldl extend (before ++ acc) = before ++ rest.foldl extend acc := by
  induction rest generalizing acc with
  | nil => rfl
  | cons seg rest ih =>
      have hstep : extend (before ++ acc) seg = before ++ extend acc seg := by
        cases seg with
        | index n => exact String.append_assoc
        | name s => simp only [extend, String.append_assoc]
      rw [List.foldl_cons, List.foldl_cons, hstep, ih]

theorem Path.text_index_cons (i : Nat) (path : Path) : Path.text (.index i :: path) = path.textFrom i := by
  cases path with
  | nil => rfl
  | cons seg rest =>
      cases seg with
      | index k => exact foldl_extend_append rest s!"[{i}]" s!"[{k}]"
      | name s => exact foldl_extend_append rest (s!"[{i}]" ++ ".") s

def slot : List Node → Frame
  | [] => .firstItem
  | n :: ns => .item (n :: ns)

theorem takesValue_slot (ns : List Node) (fs : List Frame) : takesValue (slot ns :: fs) = true := by
  cases ns with
  | nil => rfl
  | cons n ns => rfl

theorem complete_slot (n : Node) (ns : List Node) (fs : List Frame) :
    State.complete n (slot ns :: fs) = .reading .between (.afterItem (n :: ns) :: fs) := by
  cases ns with
  | nil => rfl
  | cons m ns => rfl

theorem plugAll_slot (n : Node) (ns : List Node) :
    plugAll (some n) [slot ns] = .seq (Items.ofList .broken (ns.reverse ++ [n])) := by
  cases ns with
  | nil => rfl
  | cons m ns => rfl

theorem run_item {cs : List Char} (h : Whole cs) (ns : List Node) (fs : List Frame) :
    (cs ++ [',']).foldl State.step (.reading .between (slot ns :: fs)) =
      .reading .between (slot ((read cs).1 :: ns) :: fs) := by
  have hready := State.ready_of_whole (takesValue_slot ns fs) h ',' (.inl rfl)
  rw [complete_slot] at hready
  rw [List.foldl_append]
  exact hready

theorem run_items {texts : List (List Char)} (h : ∀ cs ∈ texts, Whole cs) (ns : List Node) (fs : List Frame) :
    (texts.flatMap (· ++ [','])).foldl State.step (.reading .between (slot ns :: fs)) =
      .reading .between (slot ((texts.map fun cs => (read cs).1).reverse ++ ns) :: fs) := by
  induction texts generalizing ns with
  | nil => rfl
  | cons cs texts ih =>
      rw [List.flatMap_cons, List.foldl_append, run_item (h cs List.mem_cons_self),
        ih fun ds hds => h ds (List.mem_cons_of_mem cs hds)]
      simp

theorem intercalate_append_singleton (texts : List (List Char)) (last : List Char) :
    [','].intercalate (texts ++ [last]) = texts.flatMap (· ++ [',']) ++ last := by
  induction texts with
  | nil => exact List.intercalate_singleton
  | cons cs texts ih =>
      have hne : texts ++ [last] ≠ [] := by simp
      obtain ⟨d, ds, hds⟩ := List.exists_cons_of_ne_nil hne
      rw [List.cons_append, hds, List.intercalate_cons_cons, ← hds, ih]
      simp

theorem begins_read_items {texts : List (List Char)} (h : ∀ cs ∈ texts, Whole cs) (last more : List Char) :
    (read last).1 = .broken ∨
      (Node.seq (Items.ofList .broken (texts.map (fun cs => (read cs).1) ++ [(read last).1]))).Begins
        (read ('[' :: [','].intercalate (texts ++ [last]) ++ ']' :: more)).1 := by
  have hlast := State.read_begins_inside (takesValue_slot (texts.map fun cs => (read cs).1).reverse [])
    last (c := ']') (.inr (.inl rfl))
  refine hlast.imp_right fun hlast => ?_
  rw [plugAll_slot, List.reverse_reverse] at hlast
  have hrun : ('[' :: [','].intercalate (texts ++ [last]) ++ [']']).foldl State.step (.reading .between []) =
      (last ++ [']']).foldl State.step
        (.reading .between [slot (texts.map fun cs => (read cs).1).reverse]) := by
    have hitems := run_items h [] []
    rw [List.append_nil] at hitems
    rw [intercalate_append_singleton, List.cons_append, List.append_assoc, List.foldl_cons, List.foldl_append]
    exact congrArg ((last ++ [']']).foldl State.step) hitems
  have htext : '[' :: [','].intercalate (texts ++ [last]) ++ ']' :: more =
      ('[' :: [','].intercalate (texts ++ [last]) ++ [']']) ++ more := by
    rw [List.append_assoc, List.singleton_append]
  rw [htext]
  rw [← hrun] at hlast
  exact hlast.trans (State.soFar_begins_read _ more)

theorem itemsFrom_of_begins {α : Type} {d : Decoder α} (hd : Settled d) {good : List Node}
    (hgood : ∀ n ∈ good, ∃ a, d n = .ok a) {bad : Node} {path : Path} {reason : Reason}
    (hbad : d bad = .error (.data path reason)) {i : Nat} {ys : Items}
    (h : (Items.ofList .broken (good ++ [bad])).Begins ys) :
    Decoder.itemsFrom d i ys = .error (.data (.index (i + good.length) :: path) reason) := by
  induction good generalizing i ys with
  | nil =>
      obtain ⟨m, s, rfl, head, -⟩ := h.exists_cons
      simp only [Decoder.itemsFrom, hd.eq_of_data head hbad]
      rfl
  | cons n good ih =>
      obtain ⟨m, s, rfl, head, tail⟩ := h.exists_cons
      obtain ⟨a, ha⟩ := hgood n List.mem_cons_self
      have hrest := ih (fun k hk => hgood k (List.mem_cons_of_mem n hk)) tail (i := i + 1)
      have hm : within (.index i) (d m) = .ok a := by rw [hd.eq_of_ok head ha, ha]; rfl
      rw [Nat.add_right_comm, Nat.add_assoc] at hrest
      simp only [Decoder.itemsFrom, hm, hrest, List.length_cons]

theorem list_of_begins {α : Type} {d : Decoder α} (hd : Settled d) {good : List Node}
    (hgood : ∀ n ∈ good, ∃ a, d n = .ok a) {bad : Node} {path : Path} {reason : Reason}
    (hbad : d bad = .error (.data path reason)) {n : Node}
    (h : (Node.seq (Items.ofList .broken (good ++ [bad]))).Begins n) :
    Decoder.list d n = .error (.data (.index good.length :: path) reason) := by
  obtain ⟨ys, rfl, hys⟩ : ∃ ys, n = .seq ys ∧ (Items.ofList .broken (good ++ [bad])).Begins ys := by
    cases h with
    | same => exact ⟨_, rfl, .same _⟩
    | seq h => exact ⟨_, rfl, h⟩
  have hitems := itemsFrom_of_begins hd hgood hbad hys (i := 0)
  rwa [Nat.zero_add] at hitems

def listText (texts : List String) : String :=
  "[" ++ ",".intercalate texts ++ "]"

def LocatesFaults {α : Type} (d : Decoder α) : Prop :=
  ∀ (good : List String) (bad : String) (path : Path) (reason : Reason),
    (∀ text ∈ good, ∃ a, decodeWhole? d text = some a) →
    decodeText d bad = .error (.data path reason) →
    ∀ more what : String,
      decodeText (.list d) (listText (good ++ [bad]) ++ more) =
          .error (.data (.index good.length :: path) reason) ∧
        Error.payloadMessage what (.data (.index good.length :: path) reason) =
          s!"{what} at `{path.textFrom good.length}`: {reason.text}"

theorem Settled.locatesFaults {α : Type} {d : Decoder α} (hd : Settled d) : LocatesFaults d := by
  intro good bad path reason hgood hbad more what
  have hread (cs : List Char) (hcs : cs ∈ good.map String.toList) :
      Whole cs ∧ ∃ a, d (read cs).1 = .ok a := by
    obtain ⟨text, htext, rfl⟩ := List.mem_map.mp hcs
    obtain ⟨a, ha⟩ := hgood text htext
    obtain ⟨hok, hblanks⟩ := decodeWhole?_eq_some_iff_read.mp ha
    exact ⟨⟨hd.thorough _ a hok, hblanks⟩, a, hok⟩
  have hok (n : Node) (hn : n ∈ (good.map String.toList).map fun cs => (read cs).1) : ∃ a, d n = .ok a := by
    obtain ⟨cs, hcs, rfl⟩ := List.mem_map.mp hn
    exact (hread cs hcs).2
  have htext : (listText (good ++ [bad]) ++ more).toList =
      '[' :: [','].intercalate (good.map String.toList ++ [bad.toList]) ++ ']' :: more.toList := by
    simp [listText, String.toList_intercalate]
  constructor
  · rcases begins_read_items (fun cs hcs => (hread cs hcs).1) bad.toList more.toList with hbroken | hbegins
    · rw [decodeText, hbroken, hd.broken] at hbad
      cases hbad
    · rw [decodeText, htext, list_of_begins hd hok hbad hbegins, List.length_map, List.length_map]
  · rw [Error.payloadMessage, Path.text_index_cons]

end Json

theorem Mapping.settled_decode : Settled Mapping.decode := by
  have haddr := settled_required "addr" settled_word32
  have hsize := settled_required "size" settled_word32
  have hmodule := settled_optional "module" settled_string.nullable none
  have hdesc := settled_required "desc" settled_string
  exact ((((haddr.fmap Mapping.mk).seq hsize).seq hmodule).seq hdesc).decode _ _

theorem InstructionPart.settled_decode : Settled InstructionPart.decode := by
  have hkind := settled_required "kind" settled_string
  have htext := settled_required "text" settled_string
  exact ((hkind.fmap InstructionPart.mk).seq htext).decode _ _

theorem Instruction.settled_decode : Settled Instruction.decode := by
  have haddr := settled_required "addr" settled_word32
  have hbytes := settled_required "bytes" settled_string
  have hcode := settled_required "code" InstructionPart.settled_decode.list
  have hops := settled_optional "ops" settled_string.list []
  exact ((((haddr.fmap Instruction.mk).seq hbytes).seq hcode).seq hops).decode _ _

theorem Breakpoint.settled_decode : Settled Breakpoint.decode := by
  have haddress := settled_required "address" settled_word32
  have hdisabled := settled_optional "disabled" settled_boolean false
  have honeShot := settled_optional "oneShot" settled_boolean false
  exact (((haddress.fmap Breakpoint.ofFields).seq hdisabled).seq honeShot).decode _ _

theorem lists_locateFaults :
    LocatesFaults Mapping.decode ∧ LocatesFaults Instruction.decode ∧ LocatesFaults Breakpoint.decode :=
  ⟨Mapping.settled_decode.locatesFaults, Instruction.settled_decode.locatesFaults,
    Breakpoint.settled_decode.locatesFaults⟩

theorem lists_locateFaults_third_item :
    decodeText (.list Breakpoint.decode)
        (listText ["[16]", " \x7b\"address\":32\x7d ", "\x7b\"address\":\"big\""] ++ ", [48") =
      .error (.data [.index 2, .name "address"] (.invalidType (.string "big") "u32")) ∧
    Error.payloadMessage "breakpoints" (.data [.index 2, .name "address"] (.invalidType (.string "big") "u32")) =
      "breakpoints at `[2].address`: invalid type: string \"big\", expected u32" := by
  have hgood : ∀ text ∈ ["[16]", " \x7b\"address\":32\x7d "], ∃ a, decodeWhole? Breakpoint.decode text = some a := by
    simp only [List.forall_mem_cons]
    exact ⟨⟨.standing 16, by decide +kernel⟩, ⟨.standing 32, by decide +kernel⟩, nofun⟩
  have hbad : decodeText Breakpoint.decode "\x7b\"address\":\"big\"" =
      .error (.data [.name "address"] (.invalidType (.string "big") "u32")) := by
    rfl
  obtain ⟨hlist, hmessage⟩ := lists_locateFaults.2.2 _ _ _ _ hgood hbad ", [48" "breakpoints"
  exact ⟨hlist, hmessage.trans (by decide +kernel)⟩

end RunControl
