import Mathlib.Data.List.TakeWhile
import RunControl.Proofs.Json.ReadBack

namespace RunControl.Json

theorem toDigits_cons {n : Nat} (h : 0 < n) :
    ∃ c cs, Nat.toDigits 10 n = c :: cs ∧ c ≠ '0' := by
  induction n using Nat.strongRecOn with
  | ind n ih =>
      rw [Nat.toDigits_eq_if (by decide)]
      split
      · rename_i hlt
        refine ⟨_, _, rfl, ?_⟩
        have hd : ∀ d < 10, 0 < d → Nat.digitChar d ≠ '0' := by decide
        exact hd n hlt h
      · obtain ⟨c, cs, hc, hne⟩ := ih (n / 10) (by omega) (by omega)
        exact ⟨c, _, by rw [hc]; rfl, hne⟩

theorem after?_whole (cs : List Char) (h : ∀ c ∈ cs, c.isDigit = true) :
    NumeralPart.whole.after? cs = some .whole := by
  induction cs with
  | nil => rfl
  | cons c cs ih =>
      have hc : NumeralPart.whole.next? c = some .whole := by
        simp [NumeralPart.next?, h c List.mem_cons_self]
      rw [NumeralPart.after?, hc]
      exact ih fun d hd => h d (List.mem_cons_of_mem _ hd)

theorem isDigit_of_mem {n : Nat} {c : Char} (h : c ∈ Nat.toDigits 10 n) : c.isDigit = true :=
  Nat.isDigit_of_mem_toDigits (by decide) (by decide) h

theorem isNumeral_toDigits (n : Nat) : isNumeral (Nat.toDigits 10 n) = true := by
  rcases Nat.eq_zero_or_pos n with rfl | hn
  · rfl
  · obtain ⟨c, cs, hc, hne⟩ := toDigits_cons hn
    have hdigit : c.isDigit = true := isDigit_of_mem (hc ▸ List.mem_cons_self)
    have hcs : ∀ d ∈ cs, d.isDigit = true := fun d hd =>
      isDigit_of_mem (hc ▸ List.mem_cons_of_mem _ hd)
    have hfirst : NumeralPart.first? c = some .whole := by
      have hminus : c ≠ '-' := by
        rintro rfl
        cases hdigit
      simp only [NumeralPart.first?, if_neg hminus, if_neg hne, if_pos hdigit]
    rw [hc, isNumeral, hfirst]
    show ((NumeralPart.whole.after? cs).any NumeralPart.mayEnd) = true
    rw [after?_whole cs hcs]
    rfl

namespace Number

theorem le_ofDigitChars (cs : List Char) (m : Nat) : m ≤ Nat.ofDigitChars 10 cs m := by
  induction cs generalizing m with
  | nil => exact Nat.le_of_eq Nat.ofDigitChars_nil.symm
  | cons c cs ih =>
      rw [Nat.ofDigitChars_cons]
      exact Nat.le_trans (by omega) (ih _)

section

-- Unfolding the walk must not run the comparison with a 64-bit bound.
attribute [local irreducible] Scaled.push?

theorem whole_nil (s : Scaled) : s.whole [] = s :=
  rfl

theorem whole_cons (s : Scaled) (c : Char) (cs : List Char) :
    s.whole (c :: cs) = match s.push? c with
      | some n => Scaled.whole { s with significand := n } cs
      | none => { s with exponent := s.exponent + (cs.length + 1) } :=
  rfl

end

theorem whole_eq (cs : List Char) (m : Nat) (h : Nat.ofDigitChars 10 cs m < 0x10000000000000000) :
    Scaled.whole ⟨m, 0⟩ cs = ⟨Nat.ofDigitChars 10 cs m, 0⟩ := by
  induction cs generalizing m with
  | nil => rw [Nat.ofDigitChars_nil, whole_nil]
  | cons c cs ih =>
      rw [Nat.ofDigitChars_cons] at h ⊢
      have hle := le_ofDigitChars cs (10 * m + (c.toNat - '0'.toNat))
      have hd : m * 10 + digit c = 10 * m + (c.toNat - '0'.toNat) := by
        rw [Nat.mul_comm, digit]
      generalize 10 * m + (c.toNat - '0'.toNat) = k at h hle hd ⊢
      have hp : Scaled.push? ⟨m, 0⟩ c = some k := by
        simp only [Scaled.push?, hd, if_pos (Nat.lt_of_le_of_lt hle h)]
      rw [whole_cons, hp]
      exact ih k h

theorem ofLexeme?_toDigits {n : Nat} (h : n < 0x10000000000000000) :
    ofLexeme? (Nat.toDigits 10 n) = some (.natural n) := by
  have hall : ∀ c ∈ Nat.toDigits 10 n, c.isDigit = true := fun c hc => isDigit_of_mem hc
  have hminus : ((Nat.toDigits 10 n).head? == some '-') = false := by
    cases hd : Nat.toDigits 10 n with
    | nil => exact absurd hd Nat.toDigits_ne_nil
    | cons c cs =>
        have hc : c ≠ '-' := by
          rintro rfl
          exact absurd (hall '-' (hd ▸ List.mem_cons_self)) (by decide)
        simpa using hc
  have htake := List.takeWhile_eq_self_iff.mpr hall
  have hdrop := List.dropWhile_eq_nil_iff.mpr hall
  have hwhole : Scaled.whole ⟨0, 0⟩ (Nat.toDigits 10 n) = ⟨n, 0⟩ := by
    rw [whole_eq _ 0 (by rwa [Nat.ofDigitChars_ten_toDigits]), Nat.ofDigitChars_ten_toDigits]
  simp only [ofLexeme?, hminus, Bool.false_eq_true, if_false, htake, hdrop, hwhole]
  rfl

end Number

end RunControl.Json
