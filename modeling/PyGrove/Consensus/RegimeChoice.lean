import Mathlib.Analysis.SpecialFunctions.Log.Basic
import PyGrove.Consensus.ExactAccordion
import PyGrove.Consensus.LnFixed

set_option autoImplicit false

namespace PyGrove.Consensus

open Words FixedPoint Fixed

section
variable [RoundingModes]

theorem ln_fixed_one (x : I64F64) (one : x.value = 1) : ∃ l, lnFixed x = some l ∧ l.value = 0 := by
  have bits : 2 ^ 64 ≤ x.bits ∧ x.bits ≤ 2 ^ 64 := ⟨(one_le_value x).mp one.ge, (value_le_one x).mp one.le⟩
  have clamp : InClamp x := by
    rw [InClamp, one]
    norm_num
  obtain ⟨_, _, _, l, run⟩ := ln_fixed_run x clamp
  obtain ⟨low, high⟩ := ln_sign x l clamp run.result
  exact ⟨l, run.result, le_antisymm ((value_nonpos l).mpr (high bits.2)) ((value_nonneg l).mpr (low bits.1))⟩

theorem last_below_one (x l : I64F64) (clamp : InClamp x) (result : lnFixed x = some l) (below : x.bits < 2 ^ 64)
    (zero : 0 ≤ l.bits) : x.value = 1 - 1 / 2 ^ 64 := by
  have last : x.bits = 2 ^ 64 - 1 := by
    by_contra other
    have negative := ln_negative x l clamp (by omega) result
    omega
  rw [value_eq, last]
  norm_num

omit [RoundingModes] in
theorem log_ratio_neg (x : I64F64) (clamp : InClamp x) : Real.log x.value < 0 ↔ x.bits < 2 ^ 64 := by
  have positive : (0 : ℝ) < x.value := by exact_mod_cast lt_of_lt_of_le (by norm_num) clamp.1
  rw [Real.log_neg_iff positive, ← not_le, ← not_le, ← one_le_value]
  norm_cast

noncomputable def trueRegime (params : AccordionParams I64F64) (rH rA : I64F64) : Option Regime :=
  chooseRegime (params.epsilon.value : ℝ) (Real.log rH.value) (Real.log rA.value)

omit [RoundingModes] in
theorem true_regime_ratios (params : AccordionParams I64F64) (rH rA : I64F64) (regime : Regime) (clampH : InClamp rH)
    (clampA : InClamp rA) (chosen : trueRegime params rH rA = some regime) :
    (regime = .growth → 2 ^ 64 ≤ rH.bits ∧ 2 ^ 64 ≤ rA.bits) ∧
      (regime = .contraction → rH.bits < 2 ^ 64 ∨ rA.bits < 2 ^ 64) := by
  obtain ⟨_, zero, rises, falls⟩ := choose_regime_some _ _ _ _ chosen
  cases zero
  rw [Int.cast_zero, ← not_lt, ← not_lt, log_ratio_neg rH clampH, log_ratio_neg rA clampA, not_lt, not_lt] at rises
  rw [Int.cast_zero, log_ratio_neg rH clampH, log_ratio_neg rA clampA] at falls
  exact ⟨rises, falls⟩

theorem regime_logarithms (params : AccordionParams I64F64) (rH rA : I64F64) (bias : I8) (out : AccordionOutcome I64F64)
    (evaluated : evaluate params rH rA bias = some out) :
    ∃ lh la, lnFixed rH = some lh ∧ lnFixed rA = some la ∧
      (out.regime = .growth → 0 ≤ lh.bits ∧ 0 ≤ la.bits) ∧ (out.regime = .contraction → lh.bits < 0 ∨ la.bits < 0) := by
  obtain ⟨lh, la, lnH, lnA, chosen⟩ := evaluate_some params rH rA bias out evaluated
  obtain ⟨zero, made, rises, falls⟩ := choose_regime_some _ _ _ _ chosen
  have zeroBits := of_bits_some _ zero made
  rw [zero_mul] at zeroBits
  rw [le_bits, le_bits, zeroBits] at rises
  rw [lt_bits, lt_bits, zeroBits] at falls
  exact ⟨lh, la, lnH, lnA, rises, falls⟩

theorem growth_not_inverted (params : AccordionParams I64F64) (rH rA : I64F64) (bias : I8) (out : AccordionOutcome I64F64)
    (clampH : InClamp rH) (clampA : InClamp rA) (evaluated : evaluate params rH rA bias = some out)
    (growth : trueRegime params rH rA = some .growth) : out.regime ≠ .contraction := by
  intro contraction
  obtain ⟨lh, la, lnH, lnA, _, falls⟩ := regime_logarithms params rH rA bias out evaluated
  obtain ⟨risesH, risesA⟩ := (true_regime_ratios params rH rA _ clampH clampA growth).1 rfl
  have signH := (ln_sign rH lh clampH lnH).1 risesH
  have signA := (ln_sign rA la clampA lnA).1 risesA
  rcases falls contraction with fallH | fallA
  · omega
  · omega

theorem contraction_inverted_at (params : AccordionParams I64F64) (rH rA : I64F64) (bias : I8) (out : AccordionOutcome I64F64)
    (clampH : InClamp rH) (clampA : InClamp rA) (evaluated : evaluate params rH rA bias = some out)
    (contraction : trueRegime params rH rA = some .contraction) (growth : out.regime = .growth) :
    rH.value = 1 - 1 / 2 ^ 64 ∨ rA.value = 1 - 1 / 2 ^ 64 := by
  obtain ⟨lh, la, lnH, lnA, rises, _⟩ := regime_logarithms params rH rA bias out evaluated
  obtain ⟨risesH, risesA⟩ := rises growth
  rcases (true_regime_ratios params rH rA _ clampH clampA contraction).2 rfl with belowH | belowA
  · exact .inl (last_below_one rH lh clampH lnH belowH risesH)
  · exact .inr (last_below_one rA la clampA lnA belowA risesA)

theorem ln_fixed_order :
    (∀ x1 x2, InClamp x1 → InClamp x2 → x1 ≤ x2 → ∃ l1 l2, lnFixed x1 = some l1 ∧ lnFixed x2 = some l2 ∧ l1 ≤ l2) ∧
    (∀ x : I64F64, x.value = 1 → ∃ l, lnFixed x = some l ∧ l.value = 0) ∧
    (∀ x l, InClamp x → lnFixed x = some l → (1 ≤ x.value → 0 ≤ l.value) ∧ (x.value ≤ 1 → l.value ≤ 0)) ∧
    ∀ params rH rA bias out, InClamp rH → InClamp rA → evaluate params rH rA bias = some out →
      (trueRegime params rH rA = some .growth → out.regime ≠ .contraction) ∧
      (trueRegime params rH rA = some .contraction → out.regime = .growth →
        rH.value = 1 - 1 / 2 ^ 64 ∨ rA.value = 1 - 1 / 2 ^ 64) := by
  refine ⟨?_, ln_fixed_one, ?_, ?_⟩
  · intro x1 x2 clamp1 clamp2 le
    obtain ⟨_, _, _, l1, run1⟩ := ln_fixed_run x1 clamp1
    obtain ⟨_, _, _, l2, run2⟩ := ln_fixed_run x2 clamp2
    exact ⟨l1, l2, run1.result, run2.result, ln_mono x1 x2 l1 l2 clamp1 clamp2 le run1.result run2.result⟩
  · intro x l clamp result
    rw [one_le_value, value_le_one, value_nonneg, value_nonpos]
    exact ln_sign x l clamp result
  · intro params rH rA bias out clampH clampA evaluated
    exact ⟨growth_not_inverted params rH rA bias out clampH clampA evaluated,
      contraction_inverted_at params rH rA bias out clampH clampA evaluated⟩

end

open Sample in
theorem last_below_one_grows :
    let rH : I64F64 := ⟨2 ^ 64 - 1, by decide, by decide⟩
    let rA : I64F64 := ⟨2 ^ 65, by decide, by decide⟩
    trueRegime .defaults rH rA = some .contraction ∧
      (evaluate .defaults rH rA 0).map AccordionOutcome.regime = some .growth := by
  refine ⟨?_, by decide +kernel⟩
  have below : Real.log ((⟨2 ^ 64 - 1, by decide, by decide⟩ : I64F64).value : ℝ) < 0 :=
    (log_ratio_neg _ ((in_clamp_bits _).mpr ⟨by norm_num, by norm_num⟩)).mpr (by norm_num)
  have doubled : ((⟨2 ^ 65, by decide, by decide⟩ : I64F64).value : ℝ) = 2 := by norm_num [value]
  have least : 1 - (2 : ℝ)⁻¹ ≤ Real.log 2 := Real.one_sub_inv_le_log_of_pos (by norm_num)
  rw [trueRegime, choose_regime_exact, doubled, regimeOf, if_neg, if_neg]
  · rintro ⟨rises, _⟩
    linarith
  · rintro ⟨_, band⟩
    rw [abs_le] at band
    norm_num [AccordionParams.defaults, value] at band least
    linarith [band.2]

end PyGrove.Consensus
