import RunControl.Proofs.Json.Codec

namespace RunControl.Json

def Printed (cs : List Char) : Prop :=
  ∀ c ∈ cs, 0x20 ≤ c.toNat

-- Going through the list and not through all characters.
instance (cs : List Char) : Decidable (Printed cs) :=
  List.decidableBAll _ cs

theorem printed_append {cs ds : List Char} : Printed (cs ++ ds) ↔ Printed cs ∧ Printed ds :=
  List.forall_mem_append

theorem printed_cons {c : Char} {cs : List Char} : Printed (c :: cs) ↔ 0x20 ≤ c.toNat ∧ Printed cs :=
  List.forall_mem_cons

theorem Printed.notMem {cs : List Char} (h : Printed cs) {c : Char} (hc : c.toNat < 0x20) : c ∉ cs := by
  intro hm
  have := h c hm
  omega

theorem printed_flatMap {α : Type} {f : α → List Char} (h : ∀ a, Printed (f a)) (l : List α) :
    Printed (l.flatMap f) := by
  intro c hc
  obtain ⟨a, -, ha⟩ := List.mem_flatMap.mp hc
  exact h a c ha

theorem printed_replicate (n : Nat) : Printed (List.replicate n '0') := by
  intro c hc
  rw [List.eq_of_mem_replicate hc]
  decide

theorem printed_toDigits (n : Nat) : Printed (Nat.toDigits 10 n) := by
  intro c hc
  have hd := isDigit_of_mem hc
  simp only [Char.isDigit, Bool.and_eq_true, decide_eq_true_eq] at hd
  exact Nat.le_trans (by decide) hd.1

theorem printed_hexPair : ∀ n < 0x20, Printed (hexPair n) := by
  decide

theorem printed_escapeChar (c : Char) : Printed (escapeChar c) := by
  unfold escapeChar
  split
  case h_8 =>
    split
    · rename_i hlt
      have hx := printed_hexPair c.toNat hlt
      simp only [printed_cons]
      exact ⟨by decide, by decide, by decide, by decide, hx⟩
    · rename_i hge
      exact List.forall_mem_singleton.mpr (Nat.not_lt.mp hge)
  all_goals decide

theorem printed_renderText (t : Option String) : Printed (renderText t) := by
  cases t with
  | none => decide
  | some s =>
      have hs := printed_flatMap printed_escapeChar s.toList
      rw [renderText, List.cons_append, printed_cons, printed_append]
      exact ⟨by decide, hs, by decide⟩

theorem printed_toString (i : Int) : Printed (toString i).toList := by
  cases i with
  | ofNat n =>
      change Printed (String.ofList (Nat.toDigits 10 n)).toList
      rw [String.toList_ofList]
      exact printed_toDigits n
  | negSucc n =>
      change Printed ("-" ++ String.ofList (Nat.toDigits 10 (n + 1))).toList
      rw [String.toList_append, printed_append, @String.toList_ofList (Nat.toDigits 10 (n + 1))]
      exact ⟨by decide, printed_toDigits (n + 1)⟩

theorem printed_power (p : Prop) [Decidable p] (i : Int) :
    Printed ((if p then "+" else "") ++ toString i).toList := by
  rw [String.toList_append, printed_append]
  refine ⟨?_, printed_toString i⟩
  split
  · decide
  · decide

theorem printed_scientificText (s : Decimal.Scientific) : Printed (scientificText s) := by
  have hd := printed_toDigits s.digits
  simp only [scientificText]
  generalize Nat.toDigits 10 s.digits = digits at hd
  split
  · rw [printed_append, printed_append]
    exact ⟨⟨hd, printed_replicate _⟩, by decide⟩
  · split
    · rw [printed_append, printed_cons]
      exact ⟨fun c hc => hd c (List.mem_of_mem_take hc), by decide,
        fun c hc => hd c (List.mem_of_mem_drop hc)⟩
    · split
      · rw [printed_cons, printed_cons, printed_append]
        exact ⟨by decide, by decide, printed_replicate _, hd⟩
      · have hp := printed_power (0 < (digits.length : Int) + s.exponent)
          ((digits.length : Int) + s.exponent - 1)
        -- Of one digit, none stands after a point.
        split
        · rw [printed_cons] at hd
          exact printed_cons.mpr ⟨hd.1, printed_cons.mpr ⟨by decide, hp⟩⟩
        · rw [printed_cons] at hd
          exact printed_cons.mpr ⟨hd.1, printed_cons.mpr ⟨by decide,
            printed_append.mpr ⟨hd.2, printed_cons.mpr ⟨by decide, hp⟩⟩⟩⟩
        · exact hd

theorem printed_realLexeme? {x : Float} {cs : List Char} (h : realLexeme? x = some cs) : Printed cs := by
  have hsign : ∀ minus : Bool, Printed (if minus then ['-'] else []) := by decide
  simp only [realLexeme?] at h
  split at h
  · cases h
  · cases h
  · cases h
    exact printed_append.mpr ⟨hsign _, by decide⟩
  · cases h
    exact printed_append.mpr ⟨hsign _, printed_scientificText _⟩

theorem printed_ofFloat (x : Float) : Printed (Node.ofFloat x).render := by
  rw [Node.ofFloat]
  cases h : realLexeme? x with
  | none => exact (by decide : Printed ['n', 'u', 'l', 'l'])
  | some lexeme => exact printed_realLexeme? h

theorem printed_list {ns : List Node} (h : ∀ n ∈ ns, Printed n.render) : Printed (Node.list ns).render := by
  have hitems : ∀ before, Printed before → Printed ((Items.ofList .closed ns).render before) := by
    induction ns with
    | nil =>
        intro before _
        change Printed [']']
        decide
    | cons n ns ih =>
        intro before hb
        obtain ⟨hn, hns⟩ := List.forall_mem_cons.mp h
        rw [Items.ofList, Items.render, printed_append, printed_append]
        exact ⟨⟨hb, hn⟩, ih hns [','] (by decide)⟩
  rw [Node.list, Node.render, printed_cons]
  exact ⟨by decide, hitems [] (by decide)⟩

theorem printed_object {ms : List (String × Node)} (h : ∀ m ∈ ms, Printed m.2.render) :
    Printed (Node.object ms).render := by
  have hmembers : ∀ before, Printed before →
      Printed ((Members.ofList .closed (ms.map fun m => (some m.1, m.2))).render before) := by
    induction ms with
    | nil =>
        intro before _
        change Printed ['\x7d']
        decide
    | cons m ms ih =>
        intro before hb
        obtain ⟨hm, hms⟩ := List.forall_mem_cons.mp h
        rw [List.map_cons, Members.ofList, Members.render, printed_append, printed_append, printed_append,
          printed_cons]
        exact ⟨⟨⟨hb, printed_renderText (some m.1)⟩, by decide, hm⟩, ih hms [','] (by decide)⟩
  rw [Node.object, Node.render, printed_cons]
  exact ⟨by decide, hmembers [] (by decide)⟩

theorem printed_ofString (s : String) : Printed (Node.ofString s).render :=
  printed_renderText (some s)

theorem printed_ofNat (n : Nat) : Printed (Node.ofNat n).render :=
  printed_toDigits n

theorem printed_bool (b : Bool) : Printed (Node.bool b).render := by
  cases b with
  | false => exact (by decide : Printed ['f', 'a', 'l', 's', 'e'])
  | true => exact (by decide : Printed ['t', 'r', 'u', 'e'])

def PrintedSlot (slot : String × Option Node) : Prop :=
  ∀ n, slot.2 = some n → Printed n.render

theorem printedSlot_some (name : String) {n : Node} (h : Printed n.render) : PrintedSlot (name, some n) := by
  rintro _ ⟨⟩
  exact h

theorem printed_present {slots : List (String × Option Node)} (h : ∀ slot ∈ slots, PrintedSlot slot) :
    Printed (Node.object (present slots)).render :=
  printed_object fun _ hm => h _ (mem_present.mp hm) _ rfl

end RunControl.Json
