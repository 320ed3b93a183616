import Mathlib.Logic.Function.Basic
import RunControl.Storage.Files

namespace RunControl

theorem toList_loop_eq (bytes : ByteArray) (i : Nat) (r : List UInt8) :
    ByteArray.toList.loop bytes i r = r.reverse ++ bytes.data.toList.drop i := by
  induction i, r using ByteArray.toList.loop.induct bytes with
  | case1 i r hi ih =>
      have hget : bytes.get! i = bytes.data.toList[i] := getElem!_pos bytes.data i hi
      rw [ByteArray.toList.loop, if_pos hi, ih, List.drop_eq_getElem_cons hi, hget, List.reverse_cons,
        List.append_assoc, List.singleton_append]
  | case2 i r hi =>
      rw [ByteArray.toList.loop, if_neg hi, List.drop_eq_nil_of_le (Nat.not_lt.mp hi), List.append_nil]

theorem toList_eq_data (bytes : ByteArray) : bytes.toList = bytes.data.toList :=
  toList_loop_eq bytes 0 []

namespace Files

structure IsFileName (name : String) : Prop where
  no_slash : '/' ∉ name.toList
  no_zero : '\x00' ∉ name.toList
  ne_empty : name ≠ ""
  ne_point : name ≠ "."
  ne_points : name ≠ ".."

end Files

namespace FileStorage

theorem toUTF8_toList_injective : Function.Injective fun key : String => key.toUTF8.toList := by
  intro k l h
  have hdata : k.toUTF8 = l.toUTF8 := by
    apply ByteArray.ext
    apply Array.toList_inj.mp
    rw [← toList_eq_data, ← toList_eq_data]
    exact h
  have hdecode := Text.Utf8.decode?_toUTF8 k
  rw [hdata, Text.Utf8.decode?_toUTF8] at hdecode
  exact (Option.some.inj hdecode).symm

theorem upperHexDigit_inj : ∀ m < 16, ∀ n < 16, upperHexDigit m = upperHexDigit n → m = n := by
  decide

theorem toNat_ofNat_byte (b : UInt8) : (Char.ofNat b.toNat).toNat = b.toNat := by
  have hb := b.toNat_lt
  rw [Char.ofNat, dif_pos (.inl (by omega))]
  rfl

theorem ofNat_ne_percent {b : UInt8} (h : isPlainByte b = true) : Char.ofNat b.toNat ≠ '%' := by
  intro hn
  have hb : b.toNat = 37 := by
    rw [← toNat_ofNat_byte, hn]
    rfl
  have h37 : b = 37 := UInt8.toNat_inj.mp hb
  rw [h37] at h
  exact absurd h (by decide)

theorem spellByte_split {b c : UInt8} {r s : List Char} (h : spellByte b ++ r = spellByte c ++ s) :
    b = c ∧ r = s := by
  rw [spellByte, spellByte] at h
  cases hb : isPlainByte b <;> cases hc : isPlainByte c <;>
    simp only [hb, hc, if_true, if_false, Bool.false_eq_true, List.cons_append, List.nil_append,
      List.cons.injEq] at h
  case false.false =>
    obtain ⟨-, hhi, hlo, hr⟩ := h
    have hb := b.toNat_lt
    have hc := c.toNat_lt
    have hdiv := upperHexDigit_inj _ (by omega) _ (by omega) hhi
    have hmod := upperHexDigit_inj _ (by omega) _ (by omega) hlo
    exact ⟨UInt8.toNat_inj.mp (by omega), hr⟩
  case false.true => exact absurd h.1.symm (ofNat_ne_percent hc)
  case true.false => exact absurd h.1 (ofNat_ne_percent hb)
  case true.true =>
    have hn := congrArg Char.toNat h.1
    rw [toNat_ofNat_byte, toNat_ofNat_byte] at hn
    exact ⟨UInt8.toNat_inj.mp hn, h.2⟩

theorem spellByte_ne_nil (b : UInt8) : spellByte b ≠ [] := by
  rw [spellByte]
  split <;> exact List.cons_ne_nil _ _

theorem spell_injective : Function.Injective fun bytes : List UInt8 => bytes.flatMap spellByte := by
  intro bs cs h
  induction bs generalizing cs with
  | nil =>
      cases cs with
      | nil => rfl
      | cons c cs => exact absurd (List.append_eq_nil_iff.mp h.symm).1 (spellByte_ne_nil c)
  | cons b bs ih =>
      cases cs with
      | nil => exact absurd (List.append_eq_nil_iff.mp h).1 (spellByte_ne_nil b)
      | cons c cs =>
          obtain ⟨rfl, hrest⟩ := spellByte_split h
          rw [ih hrest]

theorem toList_fileName (key : String) :
    (fileName key).toList = key.toUTF8.toList.flatMap spellByte ++ ".json".toList :=
  String.toList_ofList

theorem fileName_injective : Function.Injective fileName := by
  intro k l h
  have hlist := congrArg String.toList h
  rw [toList_fileName, toList_fileName] at hlist
  exact toUTF8_toList_injective (spell_injective (List.append_cancel_right hlist))

def isPlain (c : Char) : Bool :=
  c.isAlphanum || c == '.' || c == '_' || c == '-'

def isUpperHex (c : Char) : Bool :=
  c.isDigit || ('A' ≤ c && c ≤ 'F')

inductive Spelled : List Char → Prop
  | nil : Spelled []
  | plain {c : Char} {cs : List Char} (hc : isPlain c = true) (hcs : Spelled cs) : Spelled (c :: cs)
  | escape {hi lo : Char} {cs : List Char} (hhi : isUpperHex hi = true) (hlo : isUpperHex lo = true)
      (hcs : Spelled cs) : Spelled ('%' :: hi :: lo :: cs)

theorem isPlain_ofNat (b : UInt8) : isPlain (Char.ofNat b.toNat) = isPlainByte b := by
  have hall : ∀ n < 256, isPlain (Char.ofNat n) = isPlainByte (UInt8.ofNat n) := by decide +kernel
  have hb := hall b.toNat b.toNat_lt
  rwa [UInt8.ofNat_toNat] at hb

theorem isUpperHex_upperHexDigit : ∀ n < 16, isUpperHex (upperHexDigit n) = true := by
  decide

theorem Spelled.spellByte_append {cs : List Char} (h : Spelled cs) (b : UInt8) :
    Spelled (spellByte b ++ cs) := by
  have hb := b.toNat_lt
  rw [spellByte]
  split
  · rename_i hplain
    exact .plain ((isPlain_ofNat b).trans hplain) h
  · exact .escape (isUpperHex_upperHexDigit _ (by omega)) (isUpperHex_upperHexDigit _ (by omega)) h

theorem spelled_flatMap (bytes : List UInt8) : Spelled (bytes.flatMap spellByte) := by
  induction bytes with
  | nil => exact .nil
  | cons b bytes ih => exact ih.spellByte_append b

theorem Spelled.notMem {cs : List Char} (h : Spelled cs) {c : Char} (hplain : isPlain c = false)
    (hhex : isUpperHex c = false) (hpercent : c ≠ '%') : c ∉ cs := by
  induction h with
  | nil => exact List.not_mem_nil
  | plain hd _ ih =>
      refine List.not_mem_cons_of_ne_of_not_mem ?_ ih
      rintro rfl
      exact absurd (hplain.symm.trans hd) Bool.false_ne_true
  | escape hhi hlo _ ih =>
      refine List.not_mem_cons_of_ne_of_not_mem hpercent
        (List.not_mem_cons_of_ne_of_not_mem ?_ (List.not_mem_cons_of_ne_of_not_mem ?_ ih))
      · rintro rfl
        exact absurd (hhex.symm.trans hhi) Bool.false_ne_true
      · rintro rfl
        exact absurd (hhex.symm.trans hlo) Bool.false_ne_true

theorem notMem_fileName (key : String) {c : Char} (hplain : isPlain c = false)
    (hhex : isUpperHex c = false) (hpercent : c ≠ '%') (hend : c ∉ ".json".toList) :
    c ∉ (fileName key).toList := by
  rw [toList_fileName, List.mem_append, not_or]
  exact ⟨(spelled_flatMap _).notMem hplain hhex hpercent, hend⟩

theorem five_le_length_fileName (key : String) : 5 ≤ (fileName key).toList.length := by
  rw [toList_fileName, List.length_append]
  exact Nat.le_add_left 5 _

theorem fileName_ne (key : String) {name : String} (h : name.toList.length < 5) : fileName key ≠ name := by
  rintro rfl
  exact absurd (five_le_length_fileName key) (Nat.not_le.mpr h)

theorem isFileName_fileName (key : String) : Files.IsFileName (fileName key) where
  no_slash := notMem_fileName key (by decide) (by decide) (by decide) (by decide)
  no_zero := notMem_fileName key (by decide) (by decide) (by decide) (by decide)
  ne_empty := fileName_ne key (by decide)
  ne_point := fileName_ne key (by decide)
  ne_points := fileName_ne key (by decide)

end FileStorage

end RunControl
