import Mathlib.Data.UInt
import Mathlib.Order.Basic
import RunControl.Config

namespace RunControl

open Float.Model (UnpackedFloat)

theorem unpackedFloat_le_of_le_zero {x y : UnpackedFloat} {s t : UnpackedFloat.Sign}
    (hx : x.le (.zero s) = true) (hy : UnpackedFloat.le (.zero t) y = true) : x.le y = true := by
  -- Where both are compared with zero and stand, the signs alone decide: magnitudes never count.
  rcases x with (_ | _) | _ | _ | ⟨_ | _, _, _, _⟩ <;>
    rcases y with (_ | _) | _ | _ | ⟨_ | _, _, _, _⟩ <;>
    first
      | rfl
      | exact absurd hx Bool.false_ne_true
      | exact absurd hy Bool.false_ne_true

theorem unpack_zero : (0 : Float).toModel.unpack = .zero .positive := rfl

theorem float_le_iff (a b : Float) : a ≤ b ↔ a.toModel.unpack.le b.toModel.unpack = true := by
  change a.le b = true ↔ _
  simp only [Float.le, decide_eq_true_iff]
  rfl

theorem float_le_of_le_zero {a b : Float} (ha : a ≤ 0) (hb : 0 ≤ b) : a ≤ b := by
  rw [float_le_iff, unpack_zero] at ha hb
  rw [float_le_iff]
  exact unpackedFloat_le_of_le_zero ha hb

structure Sample where
  steps : UInt64
  elapsed : Float

namespace SchedulerConfig

def quick (c : SchedulerConfig) (m : Sample) : Bool :=
  c.minSampleSteps < m.steps && !(m.elapsed ≥ c.frameBudget)

theorem quick_of_frameBudget_le {c : SchedulerConfig} {m : Sample} (h : c.frameBudget ≤ 0)
    (hm : 0 ≤ m.elapsed) : c.quick m = false := by
  have hfull : m.elapsed ≥ c.frameBudget := float_le_of_le_zero h hm
  simp [quick, hfull]

def firstSize (c : SchedulerConfig) : Nat :=
  max 1 c.initialStepSize.toNat

theorem firstSize_pos (c : SchedulerConfig) : 0 < c.firstSize :=
  Nat.le_max_left 1 _

def ceiling (c : SchedulerConfig) : Nat :=
  (c.maxStepSize.map UInt64.toNat).getD (2 ^ 64 - 1)

theorem sizes_of_valid {c : SchedulerConfig} (h : DebuggerConfig.fault? c = none) :
    0 < c.initialStepSize.toNat ∧
      ∀ limit, c.maxStepSize = some limit → c.initialStepSize.toNat ≤ limit.toNat := by
  simp only [DebuggerConfig.fault?] at h
  split at h
  · cases h
  · rename_i hzero
    refine ⟨Nat.pos_of_ne_zero fun h0 => hzero (UInt64.toNat_inj.mp h0), fun limit hlimit => ?_⟩
    split at h
    · cases h
    · by_contra hlt
      have hless : limit < c.initialStepSize := UInt64.lt_iff_toNat_lt.mpr (Nat.not_le.mp hlt)
      rw [hlimit] at h
      simp only [hless, if_true] at h
      cases h

theorem firstSize_le_ceiling {c : SchedulerConfig} (h : DebuggerConfig.fault? c = none) :
    c.firstSize ≤ c.ceiling := by
  obtain ⟨hpos, hle⟩ := sizes_of_valid h
  have hword := c.initialStepSize.toNat_lt
  simp only [firstSize, ceiling, Nat.max_eq_right hpos]
  cases hlimit : c.maxStepSize with
  | none => exact Nat.le_sub_one_of_lt hword
  | some limit => exact hle limit hlimit

end SchedulerConfig

namespace Throughput

def after (t : Throughput) (samples : List Sample) : Throughput :=
  samples.foldl (fun t m => (t.record m.steps m.elapsed).2) t

theorem after_cons (t : Throughput) (m : Sample) (samples : List Sample) :
    t.after (m :: samples) = (t.record m.steps m.elapsed).2.after samples := rfl

theorem toNat_stepSize_ofConfig (c : SchedulerConfig) :
    (ofConfig c).stepSize.toNat = c.firstSize := by
  rw [SchedulerConfig.firstSize, Nat.max_comm]
  exact UInt64.toNat_max c.initialStepSize 1

theorem toNat_double (n : UInt64) : (double n).toNat = min (2 ^ 64 - 1) (2 * n.toNat) := by
  have hn := n.toNat_lt
  have htwice : (2 * n).toNat = 2 * n.toNat % 2 ^ 64 := by simp
  simp only [double]
  split
  · rename_i h
    have hhalf : n.toNat < 2 ^ 63 := UInt64.lt_iff_toNat_lt.mp h
    omega
  · rename_i h
    have hhalf : 2 ^ 63 ≤ n.toNat := UInt64.le_iff_toNat_le.mp (UInt64.not_lt.mp h)
    change 2 ^ 64 - 1 = _
    omega

theorem toNat_grown (t : Throughput) :
    t.grown.toNat = min t.config.ceiling (2 * t.stepSize.toNat) := by
  simp only [grown, SchedulerConfig.ceiling]
  cases t.config.maxStepSize with
  | none => exact toNat_double t.stepSize
  | some limit =>
      have hlimit := limit.toNat_lt
      change (min (double t.stepSize) limit).toNat = min limit.toNat _
      rw [UInt64.toNat_min, toNat_double]
      omega

theorem config_record (t : Throughput) (m : Sample) :
    (t.record m.steps m.elapsed).2.config = t.config := by
  simp only [record]
  split
  · rfl
  · split
    · rfl
    · split <;> rfl

theorem config_after (t : Throughput) (samples : List Sample) :
    (t.after samples).config = t.config := by
  induction samples generalizing t with
  | nil => rfl
  | cons m samples ih => rw [after_cons, ih, config_record]

theorem record_of_noisy {t : Throughput} {steps : UInt64} (h : steps ≤ t.config.minSampleSteps)
    (elapsed : Float) : t.record steps elapsed = (false, t) :=
  if_pos h

theorem stepSize_record (t : Throughput) (m : Sample) :
    (t.record m.steps m.elapsed).2.stepSize = if t.config.quick m then t.grown else t.stepSize := by
  simp only [record, SchedulerConfig.quick]
  by_cases hnoisy : m.steps ≤ t.config.minSampleSteps
  · simp [hnoisy, UInt64.not_lt.mpr hnoisy]
  · have hlong : t.config.minSampleSteps < m.steps := UInt64.not_le.mp hnoisy
    by_cases hslow : m.elapsed ≥ t.config.frameBudget
    · simp [hnoisy, hslow]
    · by_cases hsame : t.grown = t.stepSize <;> simp [hnoisy, hlong, hslow, hsame]

theorem record_eq_true_iff (t : Throughput) (m : Sample) :
    (t.record m.steps m.elapsed).1 = true ↔
      (t.record m.steps m.elapsed).2.stepSize ≠ t.stepSize := by
  simp only [record]
  split
  · simp
  · split
    · simp
    · split
      · simp
      · rename_i hgrown
        simpa using hgrown

theorem toNat_stepSize_record (t : Throughput) (m : Sample) :
    (t.record m.steps m.elapsed).2.stepSize.toNat =
      if t.config.quick m then min t.config.ceiling (2 * t.stepSize.toNat)
      else t.stepSize.toNat := by
  rw [stepSize_record]
  split
  · exact toNat_grown t
  · rfl

structure Paced (t : Throughput) : Prop where
  step : 0 < t.stepSize.toNat
  limit : ∀ n, t.config.maxStepSize = some n → 0 < n.toNat

theorem paced_ofConfig {c : SchedulerConfig} (h : DebuggerConfig.fault? c = none) :
    (ofConfig c).Paced := by
  obtain ⟨hpos, hle⟩ := SchedulerConfig.sizes_of_valid h
  refine ⟨?_, fun n hn => hpos.trans_le (hle n hn)⟩
  rw [toNat_stepSize_ofConfig]
  exact c.firstSize_pos

theorem Paced.ceiling {t : Throughput} (h : t.Paced) : 0 < t.config.ceiling := by
  have hlimit := h.limit
  simp only [SchedulerConfig.ceiling]
  cases hm : t.config.maxStepSize with
  | none => exact Nat.zero_lt_succ _
  | some limit => exact hlimit limit hm

theorem Paced.record {t : Throughput} (h : t.Paced) (steps : UInt64) (elapsed : Float) :
    (t.record steps elapsed).2.Paced := by
  have hsize := t.toNat_stepSize_record ⟨steps, elapsed⟩
  have hconfig := t.config_record ⟨steps, elapsed⟩
  have hstep := h.step
  have hceiling := h.ceiling
  refine ⟨?_, ?_⟩
  · rw [hsize]
    split
    · omega
    · exact hstep
  · rw [hconfig]
    exact h.limit

theorem Paced.after {t : Throughput} (h : t.Paced) (samples : List Sample) :
    (t.after samples).Paced := by
  induction samples generalizing t with
  | nil => exact h
  | cons m samples ih => exact ih (h.record m.steps m.elapsed)

theorem min_pow_mul_min (limit size k : Nat) :
    min limit (2 ^ k * min limit (2 * size)) = min limit (2 ^ (k + 1) * size) := by
  have hassoc : 2 ^ (k + 1) * size = 2 ^ k * (2 * size) := by rw [Nat.pow_succ, Nat.mul_assoc]
  rw [hassoc]
  obtain hle | hlt := Nat.le_total (2 * size) limit
  · rw [Nat.min_eq_right hle]
  · have hpow : 1 ≤ 2 ^ k := Nat.one_le_two_pow
    have hlimit : limit ≤ 2 ^ k * limit := Nat.le_mul_of_pos_left limit hpow
    have hsize : 2 ^ k * limit ≤ 2 ^ k * (2 * size) := Nat.mul_le_mul_left _ hlt
    rw [Nat.min_eq_left hlt, Nat.min_eq_left hlimit, Nat.min_eq_left (hlimit.trans hsize)]

theorem toNat_stepSize_after (t : Throughput) (samples : List Sample) :
    (t.after samples).stepSize.toNat =
      if samples.countP t.config.quick = 0 then t.stepSize.toNat
      else min t.config.ceiling (2 ^ samples.countP t.config.quick * t.stepSize.toNat) := by
  induction samples generalizing t with
  | nil => rfl
  | cons m samples ih =>
      rw [after_cons, ih, config_record, toNat_stepSize_record, List.countP_cons]
      cases t.config.quick m with
      | false => rfl
      | true =>
          rw [if_pos rfl, if_pos rfl, if_neg (Nat.succ_ne_zero _), min_pow_mul_min]
          split
          · rename_i hzero
            simp [hzero]
          · rfl

theorem growth_closed_form (c : SchedulerConfig) (samples : List Sample) :
    ((ofConfig c).after samples).stepSize.toNat =
        (if samples.countP c.quick = 0 then c.firstSize
          else min c.ceiling (2 ^ samples.countP c.quick * c.firstSize)) ∧
      ∀ m : Sample,
        let t := (ofConfig c).after samples
        ((t.record m.steps m.elapsed).1 = true ↔
            (t.record m.steps m.elapsed).2.stepSize ≠ t.stepSize) ∧
          (m.steps ≤ c.minSampleSteps → t.record m.steps m.elapsed = (false, t)) := by
  refine ⟨?_, fun m => ⟨record_eq_true_iff _ m, fun hnoisy => ?_⟩⟩
  · rw [toNat_stepSize_after, toNat_stepSize_ofConfig]
    rfl
  · refine record_of_noisy ?_ m.elapsed
    rwa [config_after]

theorem growth_past_half_a_word :
    let c : SchedulerConfig := ⟨0x8000000000000000, 10, 8, 0.5, none⟩
    let t := (ofConfig c).after [⟨11, 0 / 0⟩, ⟨10, 1⟩]
    t.stepSize.toNat = 2 ^ 64 - 1 ∧ (10 ≤ c.minSampleSteps ∧ t.record 10 1 = (false, t)) := by
  intro c t
  have hquick : [⟨11, 0 / 0⟩, ⟨10, 1⟩].countP c.quick = 1 := by decide +kernel
  have hnoisy : (10 : UInt64) ≤ c.minSampleSteps := by decide
  obtain ⟨hsize, hnext⟩ := growth_closed_form c [⟨11, 0 / 0⟩, ⟨10, 1⟩]
  refine ⟨?_, hnoisy, (hnext ⟨10, 1⟩).2 hnoisy⟩
  rw [hsize, hquick]
  decide

def Usable (t : Throughput) : List Sample → Prop
  | [] => 0 < t.stepSize
  | m :: samples =>
      let (grew, t') := t.record m.steps m.elapsed
      0 < t.stepSize ∧ t.stepSize ≤ t'.stepSize ∧ (grew = true → t.stepSize < t'.stepSize) ∧
        Usable t' samples

theorem lt_of_grew {t : Throughput} {m : Sample}
    (hle : t.stepSize ≤ (t.record m.steps m.elapsed).2.stepSize)
    (hgrew : (t.record m.steps m.elapsed).1 = true) :
    t.stepSize < (t.record m.steps m.elapsed).2.stepSize := by
  have hne := (record_eq_true_iff t m).mp hgrew
  exact UInt64.lt_of_le_of_ne hle hne.symm

theorem usable_iff (t : Throughput) (samples : List Sample) :
    t.Usable samples ↔ 0 < t.stepSize.toNat ∧
      (t.stepSize.toNat ≤ t.config.ceiling ∨ ∀ m ∈ samples, t.config.quick m = false) := by
  induction samples generalizing t with
  | nil => simp [Usable, UInt64.lt_iff_toNat_lt]
  | cons m samples ih =>
      have hsize := toNat_stepSize_record t m
      have hlt := @lt_of_grew t m
      simp only [Usable, ih, config_record, UInt64.lt_iff_toNat_lt, UInt64.le_iff_toNat_le,
        List.forall_mem_cons] at hlt ⊢
      change 0 < t.stepSize.toNat ∧ _ ↔ _
      cases hquick : t.config.quick m with
      | false =>
          rw [hquick, if_neg Bool.false_ne_true] at hsize
          constructor
          · rintro ⟨hpos, -, -, -, hrest⟩
            rw [hsize] at hrest
            exact ⟨hpos, hrest.imp_right fun h => ⟨rfl, h⟩⟩
          · rintro ⟨hpos, hrest⟩
            rw [hsize] at hlt ⊢
            exact ⟨hpos, le_rfl, hlt le_rfl, hpos, hrest.imp_right And.right⟩
      | true =>
          rw [hquick, if_pos rfl] at hsize
          constructor
          · rintro ⟨hpos, hle, -, -, -⟩
            exact ⟨hpos, .inl (by omega)⟩
          · rintro ⟨hpos, hcap | ⟨hno, -⟩⟩
            · have hle : t.stepSize.toNat ≤ (t.record m.steps m.elapsed).2.stepSize.toNat := by
                omega
              exact ⟨hpos, hle, hlt hle, by omega, .inl (by omega)⟩
            · exact absurd hno (by decide)

theorem usable_ofConfig_iff (c : SchedulerConfig) (samples : List Sample) :
    (ofConfig c).Usable samples ↔
      c.firstSize ≤ c.ceiling ∨ ∀ m ∈ samples, c.quick m = false := by
  rw [usable_iff, toNat_stepSize_ofConfig]
  exact and_iff_right c.firstSize_pos

theorem quick_batch_of_zero_limit :
    let t := ofConfig ⟨5000, 1000, 8, 0, some 0⟩
    (t.record 5000 1).1 = true ∧ (t.record 5000 1).2.stepSize = 0 ∧ ¬ t.Usable [⟨5000, 1⟩] := by
  intro t
  have hgrew : (t.record 5000 1).1 = true := by decide +kernel
  have hempty : (t.record 5000 1).2.stepSize = 0 := by decide +kernel
  refine ⟨hgrew, hempty, ?_⟩
  rintro ⟨-, -, -, hpos : 0 < (t.record 5000 1).2.stepSize⟩
  rw [hempty] at hpos
  exact absurd hpos (by decide)

theorem usable_of_valid {c : SchedulerConfig} (h : DebuggerConfig.fault? c = none)
    (samples : List Sample) : (ofConfig c).Usable samples := by
  refine (usable_iff _ samples).mpr ⟨(paced_ofConfig h).step, .inl ?_⟩
  rw [toNat_stepSize_ofConfig]
  exact SchedulerConfig.firstSize_le_ceiling h

end Throughput

end RunControl
