import Mathlib.Data.List.Forall2
import Mathlib.Data.Nat.Digits.Defs
import RunControl.Address

namespace RunControl.Numeral

def Shows (c : Char) (d : Nat) : Prop :=
  c = Nat.digitChar d ∨ c = (Nat.digitChar d).toUpper

instance (c : Char) (d : Nat) : Decidable (Shows c d) :=
  inferInstanceAs (Decidable (_ ∨ _))

def Denotes (radix : Nat) (cs : List Char) (n : Nat) : Prop :=
  ∃ ds, List.Forall₂ (fun c d => Shows c d ∧ d < radix) cs ds ∧ n = Nat.ofDigits radix ds.reverse

def Overflows (radix : Nat) (cs : List Char) : Prop :=
  ∃ digits n, digits <+: cs ∧ Denotes radix digits n ∧ 2 ^ 32 ≤ n

theorem digit?_of_le {radix : Nat} (hr : radix ≤ 16) {c : Char} {d : Nat} :
    digit? radix c = some d ↔ digit? 16 c = some d ∧ d < radix := by
  simp only [digit?]
  split
  · simp; omega
  · split
    · simp; omega
    · split
      · simp; omega
      · simp

theorem toNat_lt_of_digit? {c : Char} {d : Nat} (h : digit? 16 c = some d) : c.toNat < 128 := by
  simp only [digit?, Option.ite_none_right_eq_some] at h
  obtain ⟨hlt, -⟩ := h
  split at hlt
  · rename_i hc
    exact Nat.lt_of_le_of_lt (show c.toNat ≤ 57 from hc.2) (by decide)
  · split at hlt
    · rename_i hc
      exact Nat.lt_of_le_of_lt (show c.toNat ≤ 102 from hc.2) (by decide)
    · split at hlt
      · rename_i hc
        exact Nat.lt_of_le_of_lt (show c.toNat ≤ 70 from hc.2) (by decide)
      · exact absurd hlt (Nat.lt_irrefl 16)

theorem digit?_sixteen {c : Char} {d : Nat} : digit? 16 c = some d ↔ Shows c d ∧ d < 16 := by
  have hascii : ∀ n < 128, ∀ d < 16, digit? 16 (Char.ofNat n) = some d ↔ Shows (Char.ofNat n) d := by
    decide +kernel
  constructor
  · intro h
    have hd : d < 16 := ((digit?_of_le (Nat.le_refl 16)).mp h).2
    have hc := hascii c.toNat (toNat_lt_of_digit? h) d hd
    rw [Char.ofNat_toNat] at hc
    exact ⟨hc.mp h, hd⟩
  · rintro ⟨h, hd⟩
    have hchars : ∀ d < 16, (Nat.digitChar d).toNat < 128 ∧ (Nat.digitChar d).toUpper.toNat < 128 := by
      decide
    have hc : c.toNat < 128 := by
      rcases h with rfl | rfl
      · exact (hchars d hd).1
      · exact (hchars d hd).2
    have hiff := hascii c.toNat hc d hd
    rw [Char.ofNat_toNat] at hiff
    exact hiff.mpr h

theorem digit?_eq_some_iff {radix : Nat} (hr : radix ≤ 16) {c : Char} {d : Nat} :
    digit? radix c = some d ↔ Shows c d ∧ d < radix := by
  rw [digit?_of_le hr, digit?_sixteen, and_assoc]
  exact and_congr_right fun _ => ⟨fun h => h.2, fun h => ⟨Nat.lt_of_lt_of_le h hr, h⟩⟩

def Continues (radix value : Nat) (cs : List Char) (n : Nat) : Prop :=
  ∃ ds, List.Forall₂ (fun c d => Shows c d ∧ d < radix) cs ds ∧
    n = value * radix ^ ds.length + Nat.ofDigits radix ds.reverse

theorem continues_zero {radix n : Nat} {cs : List Char} : Continues radix 0 cs n ↔ Denotes radix cs n := by
  simp only [Continues, Denotes, Nat.zero_mul, Nat.zero_add]

theorem continues_nil {radix value n : Nat} : Continues radix value [] n ↔ n = value := by
  constructor
  · rintro ⟨ds, hds, rfl⟩
    cases hds
    simp
  · rintro rfl
    exact ⟨[], .nil, by simp⟩

theorem continues_cons {radix : Nat} (hr : radix ≤ 16) {value n : Nat} {c : Char} {cs : List Char} :
    Continues radix value (c :: cs) n ↔
      ∃ d, digit? radix c = some d ∧ Continues radix (value * radix + d) cs n := by
  simp only [Continues, digit?_eq_some_iff hr]
  constructor
  · rintro ⟨_ | ⟨d, ds⟩, hds, hn⟩
    · cases hds
    · obtain ⟨hd, hds⟩ := List.forall₂_cons.mp hds
      refine ⟨d, hd, ds, hds, ?_⟩
      rw [hn, List.reverse_cons, Nat.ofDigits_append, Nat.ofDigits_singleton, List.length_reverse,
        List.length_cons]
      ring
  · rintro ⟨d, hd, ds, hds, hn⟩
    refine ⟨d :: ds, .cons hd hds, ?_⟩
    rw [hn, List.reverse_cons, Nat.ofDigits_append, Nat.ofDigits_singleton, List.length_reverse,
      List.length_cons]
    ring

theorem Continues.le {radix : Nat} (hpos : 0 < radix) {value n : Nat} {cs : List Char}
    (h : Continues radix value cs n) : value ≤ n := by
  obtain ⟨ds, -, rfl⟩ := h
  exact Nat.le_trans (Nat.le_mul_of_pos_right value (Nat.pow_pos hpos)) (Nat.le_add_right _ _)

theorem readFrom_eq_ok_iff {radix : Nat} (hpos : 0 < radix) (hr : radix ≤ 16) {value : Nat}
    (hv : value < 2 ^ 32) {cs : List Char} {a : Address} :
    readFrom radix value cs = .ok a ↔ Continues radix value cs a.toNat := by
  induction cs generalizing value with
  | nil =>
      rw [continues_nil, readFrom, Except.ok.injEq, ← UInt32.toNat_inj, UInt32.toNat_ofNat_of_lt' hv, eq_comm]
  | cons c cs ih =>
      rw [continues_cons hr, readFrom]
      cases hd : digit? radix c with
      | none => simp
      | some d =>
          simp only [Option.some.injEq, exists_eq_left']
          split
          · rename_i hlt
            exact ih hlt
          · rename_i hge
            refine iff_of_false nofun fun h => hge ?_
            exact Nat.lt_of_le_of_lt (h.le hpos) a.toNat_lt

theorem readFrom_ne_empty (radix value : Nat) (cs : List Char) :
    readFrom radix value cs ≠ .error .empty := by
  induction cs generalizing value with
  | nil => exact nofun
  | cons c cs ih =>
      rw [readFrom]
      split
      · exact nofun
      · split
        · exact ih _
        · exact nofun

def OverflowsFrom (radix value : Nat) (cs : List Char) : Prop :=
  ∃ digits n, digits <+: cs ∧ Continues radix value digits n ∧ 2 ^ 32 ≤ n

theorem overflowsFrom_zero {radix : Nat} {cs : List Char} :
    OverflowsFrom radix 0 cs ↔ Overflows radix cs := by
  simp only [OverflowsFrom, Overflows, continues_zero]

theorem overflowsFrom_of_le {radix value : Nat} (h : 2 ^ 32 ≤ value) (cs : List Char) :
    OverflowsFrom radix value cs :=
  ⟨[], value, List.nil_prefix, continues_nil.mpr rfl, h⟩

theorem not_overflowsFrom_nil {radix value : Nat} (h : value < 2 ^ 32) : ¬ OverflowsFrom radix value [] := by
  rintro ⟨digits, n, hp, hn, hle⟩
  rw [List.prefix_nil.mp hp, continues_nil] at hn
  omega

theorem overflowsFrom_cons {radix : Nat} (hr : radix ≤ 16) {value : Nat} (h : value < 2 ^ 32) {c : Char}
    {cs : List Char} :
    OverflowsFrom radix value (c :: cs) ↔
      ∃ d, digit? radix c = some d ∧ OverflowsFrom radix (value * radix + d) cs := by
  constructor
  · rintro ⟨digits, n, hp, hn, hle⟩
    rcases List.prefix_cons_iff.mp hp with rfl | ⟨ds, rfl, hds⟩
    · rw [continues_nil] at hn
      omega
    · obtain ⟨d, hd, hn⟩ := (continues_cons hr).mp hn
      exact ⟨d, hd, ds, n, hds, hn, hle⟩
  · rintro ⟨d, hd, ds, n, hds, hn, hle⟩
    exact ⟨c :: ds, n, List.prefix_cons_inj c |>.mpr hds, (continues_cons hr).mpr ⟨d, hd, hn⟩, hle⟩

theorem readFrom_eq_tooLarge_iff {radix : Nat} (hr : radix ≤ 16) {value : Nat} (hv : value < 2 ^ 32)
    {cs : List Char} :
    readFrom radix value cs = .error .tooLarge ↔ OverflowsFrom radix value cs := by
  induction cs generalizing value with
  | nil => exact iff_of_false nofun (not_overflowsFrom_nil hv)
  | cons c cs ih =>
      rw [overflowsFrom_cons hr hv, readFrom]
      cases hd : digit? radix c with
      | none => simp
      | some d =>
          simp only [Option.some.injEq, exists_eq_left']
          split
          · rename_i hlt
            exact ih hlt
          · rename_i hge
            exact iff_of_true rfl (overflowsFrom_of_le (Nat.not_lt.mp hge) cs)

def unsigned : List Char → List Char
  | '+' :: cs => cs
  | cs => cs

theorem read_of_ne_nil (radix : Nat) {cs : List Char} (h : cs ≠ []) :
    read radix cs =
      if unsigned cs = [] then .error .invalidDigit else readFrom radix 0 (unsigned cs) := by
  unfold read
  split
  · exact absurd rfl h
  · rfl
  · rename_i cs hne
    rw [unsigned, if_neg hne]
  · rename_i hplus
    have hu : unsigned cs = cs := by
      unfold unsigned
      split
      · exact absurd rfl (hplus _)
      · rfl
    rw [hu, if_neg h]

structure Reads (radix : Nat) (cs : List Char) (r : Except NumeralFault Address) : Prop where
  ok_iff : ∀ a : Address, r = .ok a ↔ unsigned cs ≠ [] ∧ Denotes radix (unsigned cs) a.toNat
  empty_iff : r = .error .empty ↔ cs = []
  tooLarge_iff : r = .error .tooLarge ↔ Overflows radix (unsigned cs)
  invalidDigit_iff : r = .error .invalidDigit ↔
    cs ≠ [] ∧ ¬ Overflows radix (unsigned cs) ∧
      ¬ ∃ a : Address, unsigned cs ≠ [] ∧ Denotes radix (unsigned cs) a.toNat

theorem reads_read {radix : Nat} (hpos : 0 < radix) (hr : radix ≤ 16) (cs : List Char) :
    Reads radix cs (read radix cs) := by
  have hlt : 0 < 2 ^ 32 := by decide
  have hok : ∀ a : Address, read radix cs = .ok a ↔
      unsigned cs ≠ [] ∧ Denotes radix (unsigned cs) a.toNat := by
    intro a
    by_cases h : cs = []
    · simp [h, read, unsigned]
    · rw [read_of_ne_nil radix h]
      split
      · rename_i hu
        simp [hu]
      · rename_i hu
        rw [readFrom_eq_ok_iff hpos hr hlt, continues_zero]
        exact (and_iff_right hu).symm
  have hempty : read radix cs = .error .empty ↔ cs = [] := by
    by_cases h : cs = []
    · exact iff_of_true (by rw [h, read]) h
    · refine iff_of_false ?_ h
      rw [read_of_ne_nil radix h]
      split
      · exact nofun
      · exact readFrom_ne_empty radix 0 _
  have hlarge : read radix cs = .error .tooLarge ↔ Overflows radix (unsigned cs) := by
    have hnil : ¬ Overflows radix [] := overflowsFrom_zero.not.mp (not_overflowsFrom_nil hlt)
    by_cases h : cs = []
    · rw [h]
      exact iff_of_false nofun hnil
    · rw [read_of_ne_nil radix h]
      split
      · rename_i hu
        rw [hu]
        exact iff_of_false nofun hnil
      · rw [readFrom_eq_tooLarge_iff hr hlt, overflowsFrom_zero]
  refine ⟨hok, hempty, hlarge, ?_⟩
  -- Whatever is none of the other outcomes is this one.
  simp only [← hok, ← hempty, ← hlarge, ne_eq]
  cases read radix cs with
  | ok a => simp
  | error fault => cases fault <;> simp

theorem Denotes.exists_digit? {radix n : Nat} (hr : radix ≤ 16) {cs : List Char} (h : Denotes radix cs n)
    {c : Char} (hc : c ∈ cs) : ∃ d, digit? radix c = some d := by
  obtain ⟨ds, hds, -⟩ := h
  induction hds with
  | nil => exact absurd hc List.not_mem_nil
  | cons hd _ ih =>
      rcases List.mem_cons.mp hc with rfl | hc
      · exact ⟨_, (digit?_eq_some_iff hr).mpr hd⟩
      · exact ih hc

theorem Denotes.notMem {radix n : Nat} (hr : radix ≤ 16) {cs : List Char} (h : Denotes radix cs n) {c : Char}
    (hc : digit? 16 c = none) : c ∉ cs := by
  intro hmem
  obtain ⟨d, hd⟩ := h.exists_digit? hr hmem
  rw [digit?_of_le hr, hc] at hd
  cases hd.1

theorem Denotes.unsigned_eq {radix n : Nat} (hr : radix ≤ 16) {cs : List Char} (h : Denotes radix cs n) :
    unsigned cs = cs := by
  have hplus := h.notMem hr (c := '+') (by decide)
  unfold unsigned
  split
  · exact absurd List.mem_cons_self hplus
  · rfl

theorem Reads.eq_ok {radix : Nat} (hr : radix ≤ 16) {cs : List Char} {r : Except NumeralFault Address}
    (h : Reads radix cs r) {a : Address} (hne : cs ≠ []) (hd : Denotes radix cs a.toNat) : r = .ok a := by
  rw [h.ok_iff, hd.unsigned_eq hr]
  exact ⟨hne, hd⟩

theorem Denotes.append {radix n d : Nat} {cs : List Char} {c : Char} (h : Denotes radix cs n)
    (hc : Shows c d) (hd : d < radix) : Denotes radix (cs ++ [c]) (n * radix + d) := by
  obtain ⟨ds, hds, rfl⟩ := h
  refine ⟨ds ++ [d], List.rel_append hds (.cons ⟨hc, hd⟩ .nil), ?_⟩
  rw [List.reverse_append, List.reverse_singleton, List.singleton_append, Nat.ofDigits_cons]
  ring

theorem denotes_toDigits {radix : Nat} (h : 1 < radix) (n : Nat) :
    Denotes radix (Nat.toDigits radix n) n := by
  have hnil : Denotes radix [] 0 := ⟨[], .nil, rfl⟩
  induction n using Nat.strongRecOn with
  | ind n ih =>
      rw [Nat.toDigits_eq_if h]
      split
      · rename_i hlt
        have hone := hnil.append (.inl rfl) hlt
        rwa [Nat.zero_mul, Nat.zero_add] at hone
      · rename_i hge
        have hpos : 0 < n := by omega
        have hfront := ih (n / radix) (Nat.div_lt_self hpos h)
        have hall := hfront.append (.inl rfl) (Nat.mod_lt n (Nat.zero_lt_of_lt h))
        rwa [Nat.mul_comm, Nat.div_add_mod] at hall

theorem Denotes.zero_cons {radix n : Nat} {cs : List Char} (hpos : 0 < radix) (h : Denotes radix cs n) :
    Denotes radix ('0' :: cs) n := by
  obtain ⟨ds, hds, rfl⟩ := h
  refine ⟨0 :: ds, .cons ⟨.inl rfl, hpos⟩ hds, ?_⟩
  rw [List.reverse_cons, Nat.ofDigits_append, Nat.ofDigits_singleton, Nat.mul_zero, Nat.add_zero]

theorem Denotes.padded {radix n : Nat} {cs : List Char} (hpos : 0 < radix) (h : Denotes radix cs n)
    (width : Nat) : Denotes radix (cs.leftpad width '0') n := by
  rw [List.leftpad]
  induction width - cs.length with
  | zero => exact h
  | succ k ih => exact ih.zero_cons hpos

end RunControl.Numeral
