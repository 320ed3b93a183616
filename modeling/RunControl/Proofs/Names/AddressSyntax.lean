import RunControl.CommandLine.Commands
import RunControl.CommandLine.Form
import RunControl.Proofs.Names.Numerals

namespace RunControl

open Numeral

namespace Address

def Marked (cs rest : List Char) : Prop :=
  cs = '0' :: 'x' :: rest ∨ cs = '0' :: 'X' :: rest

theorem afterMarker?_eq_some_iff {cs rest : List Char} : afterMarker? cs = some rest ↔ Marked cs rest := by
  unfold afterMarker?
  split
  · simp [Marked, eq_comm]
  · simp [Marked, eq_comm]
  · rename_i hlower hupper
    refine iff_of_false nofun ?_
    rintro (h | h)
    · exact hlower rest h
    · exact hupper rest h

theorem afterMarker?_eq_none {cs : List Char} (h : ∀ rest, ¬ Marked cs rest) : afterMarker? cs = none :=
  Option.eq_none_iff_forall_ne_some.mpr fun rest hr => h rest (afterMarker?_eq_some_iff.mp hr)

theorem not_marked_of_denotes {radix n : Nat} (hr : radix ≤ 16) {cs : List Char} (h : Denotes radix cs n)
    (rest : List Char) : ¬ Marked cs rest := by
  rintro (rfl | rfl)
  · exact h.notMem hr (c := 'x') (by decide) (by simp)
  · exact h.notMem hr (c := 'X') (by decide) (by simp)

theorem readBare?_eq_some_iff {text : String} {a : Address} :
    readBare? text = some a ↔ text.toList ≠ [] ∧ Denotes 16 text.toList a.toNat := by
  have hread : readFrom 16 0 text.toList = .ok a ↔ Denotes 16 text.toList a.toNat := by
    rw [readFrom_eq_ok_iff (by decide) (Nat.le_refl 16) (by decide), continues_zero]
  simp only [readBare?]
  split
  · rename_i h
    refine iff_of_false nofun ?_
    rintro ⟨hne, hd⟩
    have hall : text.toList.all isHexDigit = true := by
      refine List.all_eq_true.mpr fun c hc => ?_
      obtain ⟨d, hd⟩ := hd.exists_digit? (Nat.le_refl 16) hc
      rw [isHexDigit, hd]
      rfl
    simp [hall, hne] at h
  · rename_i h
    have hne : text.toList ≠ [] := by
      intro hnil
      simp [hnil] at h
    rw [← hread]
    cases readFrom 16 0 text.toList with
    | ok b => simp [Except.toOption, hne]
    | error fault => simp [Except.toOption]

theorem reads_of_marked {text : String} {rest : List Char} (h : Marked text.toList rest) :
    Reads 16 rest (read text) ∧ Reads 16 rest (readKey text) := by
  have hm := afterMarker?_eq_some_iff.mpr h
  have hread : Reads 16 rest (Numeral.read 16 rest) := reads_read (by decide) (Nat.le_refl 16) rest
  constructor
  · simpa only [read, hm, Option.getD_some] using hread
  · simpa only [readKey, hm] using hread

theorem reads_of_not_marked {text : String} (h : ∀ rest, ¬ Marked text.toList rest) :
    Reads 16 text.toList (read text) ∧ Reads 10 text.toList (readKey text) := by
  have hm := afterMarker?_eq_none h
  constructor
  · simpa only [read, hm, Option.getD_none] using reads_read (by decide) (Nat.le_refl 16) text.toList
  · simpa only [readKey, hm] using reads_read (by decide) (by decide) text.toList

theorem read_of_readBare? {text : String} {a : Address} (h : readBare? text = some a) : read text = .ok a := by
  obtain ⟨hne, hd⟩ := readBare?_eq_some_iff.mp h
  have hreads := (reads_of_not_marked (not_marked_of_denotes (Nat.le_refl 16) hd)).1
  exact hreads.eq_ok (Nat.le_refl 16) hne hd

theorem toList_bare (a : Address) : a.bare.toList = (Nat.toDigits 16 a.toNat).leftpad 8 '0' :=
  String.toList_ofList

theorem denotes_bare (a : Address) : Denotes 16 a.bare.toList a.toNat := by
  rw [toList_bare]
  exact (denotes_toDigits (by decide) a.toNat).padded (by decide) 8

theorem length_bare (a : Address) : a.bare.toList.length = 8 := by
  have hlen : (Nat.toDigits 16 a.toNat).length ≤ 8 :=
    (Nat.length_toDigits_le_iff (by decide) (by decide)).mpr a.toNat_lt
  rw [toList_bare, List.length_leftpad, Nat.max_eq_left hlen]

theorem bare_ne_nil (a : Address) : a.bare.toList ≠ [] :=
  List.ne_nil_of_length_pos (by rw [length_bare]; decide)

theorem readBare?_bare (a : Address) : readBare? a.bare = some a :=
  readBare?_eq_some_iff.mpr ⟨a.bare_ne_nil, a.denotes_bare⟩

theorem marked_marked (a : Address) : Marked a.marked.toList a.bare.toList := by
  rw [marked, String.toList_append]
  exact .inl rfl

theorem ok_of_reads_bare {a : Address} {r : Except NumeralFault Address} (h : Reads 16 a.bare.toList r) :
    r = .ok a :=
  h.eq_ok (Nat.le_refl 16) a.bare_ne_nil a.denotes_bare

theorem readKey_toString (a : Address) : readKey (toString a) = .ok a := by
  have hlist : (toString a).toList = Nat.toDigits 10 a.toNat := String.toList_ofList
  have hd : Denotes 10 (toString a).toList a.toNat := by
    rw [hlist]
    exact denotes_toDigits (by decide) a.toNat
  have hne : (toString a).toList ≠ [] := by
    rw [hlist]
    exact Nat.toDigits_ne_nil
  exact (reads_of_not_marked (not_marked_of_denotes (by decide) hd)).2.eq_ok (by decide) hne hd

open CommandLine in
theorem syntaxes_agree :
    (∀ text : String,
      (∀ a : Address, (Labels.merge [] .empty).resolve? text = some a ↔
        text.toList ≠ [] ∧ Denotes 16 text.toList a.toNat) ∧
      (∀ rest, Marked text.toList rest → Reads 16 rest (read text) ∧ Reads 16 rest (readKey text)) ∧
      ((∀ rest, ¬ Marked text.toList rest) →
        Reads 16 text.toList (read text) ∧ Reads 10 text.toList (readKey text)) ∧
      ∀ a : Address, (Labels.merge [] .empty).resolve? text = some a →
        read text = .ok a ∧ Form.readAddress text = .ok a ∧
          ∀ (w : Surroundings) (c : DebuggerConfig) (oneShot : Bool) (store : StoreArguments),
            w.add c text oneShot none store =
              Surroundings.edit ((w.storeOf c store).add { address := a, disabled := false, oneShot })
                fun _ => "Breakpoint set at " ++ Style.cyan.paint w.color a.bare) ∧
      ∀ a : Address, read a.marked = .ok a ∧ readKey a.marked = .ok a ∧
        (Labels.merge [] .empty).resolve? a.bare = some a ∧ readKey (toString a) = .ok a := by
  constructor
  · intro text
    refine ⟨fun a => readBare?_eq_some_iff, fun rest => reads_of_marked, reads_of_not_marked, ?_⟩
    intro a ha
    have hread := read_of_readBare? ha
    refine ⟨hread, congrArg (Except.mapError _) hread, fun w c oneShot store => ?_⟩
    have hlabels : readLabels w.files none = .ok .empty := rfl
    have htarget : resolveTarget (.merge (Table.empty : SymbolTable).entries .empty) text = .ok a := by
      rw [resolveTarget, show (Table.empty : SymbolTable).entries = [] from rfl, ha]
    simp only [Surroundings.add, hlabels, htarget]
    rfl
  · intro a
    obtain ⟨hread, hkey⟩ := reads_of_marked a.marked_marked
    exact ⟨ok_of_reads_bare hread, ok_of_reads_bare hkey, a.readBare?_bare, a.readKey_toString⟩

theorem syntaxes_agree_zeros :
    (Labels.merge [] .empty).resolve? "00000000fF" = some 255 ∧ read "00000000fF" = .ok 255 ∧
      read "0X+00000000fF" = .ok 255 ∧ readKey "+255" = .ok 255 ∧
      readKey "0x100000000g" = .error .tooLarge := by
  obtain ⟨htexts, -⟩ := syntaxes_agree
  obtain ⟨hbare, -, -, hsame⟩ := htexts "00000000fF"
  have hzeros : (Labels.merge [] .empty).resolve? "00000000fF" = some 255 :=
    (hbare 255).mpr ⟨by decide, [0, 0, 0, 0, 0, 0, 0, 0, 15, 15], by decide, by decide⟩
  obtain ⟨-, hsigned, -, -⟩ := htexts "0X+00000000fF"
  obtain ⟨-, -, hdecimal, -⟩ := htexts "+255"
  obtain ⟨-, hlarge, -, -⟩ := htexts "0x100000000g"
  have hunmarked : ∀ rest, ¬ Marked "+255".toList rest := by
    rintro rest (h | h)
    · cases h
    · cases h
  refine ⟨hzeros, (hsame 255 hzeros).1, ?_, ?_, ?_⟩
  · rw [(hsigned _ (.inr rfl)).1.ok_iff]
    exact ⟨by decide, [0, 0, 0, 0, 0, 0, 0, 0, 15, 15], by decide, by decide⟩
  · rw [(hdecimal hunmarked).2.ok_iff]
    exact ⟨by decide, [2, 5, 5], by decide, by decide⟩
  · rw [(hlarge _ (.inl rfl)).2.tooLarge_iff]
    exact ⟨"100000000".toList, 2 ^ 32, by decide, ⟨[1, 0, 0, 0, 0, 0, 0, 0, 0], by decide, by decide⟩, by decide⟩

end Address

end RunControl
