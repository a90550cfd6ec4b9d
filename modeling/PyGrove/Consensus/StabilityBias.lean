import Mathlib.Algebra.Order.Field.Rat
import Mathlib.Data.Sign.Basic
import PyGrove.State.Records

set_option autoImplicit false

namespace PyGrove.Consensus

open Words PyGrove.State

def computeStabilityBias (prev curr : Reflection) : I8 :=
  if prev.activeAddresses = 0 ∨ curr.activeAddresses = 0 then 0
  else
    let lhs := saturatingMul curr.feeSum (prev.activeAddresses.setWidth 128)
    let rhs := saturatingMul prev.feeSum (curr.activeAddresses.setWidth 128)
    if rhs < lhs then 1
    else if lhs < rhs then -1
    else 0

def feePerActive (r : Reflection) : ℚ := r.feeSum.toNat / r.activeAddresses.toNat

def feeTrend (prev curr : Reflection) : ℤ := SignType.sign (feePerActive curr - feePerActive prev)

def crossed (a b : Reflection) : ℕ := a.feeSum.toNat * b.activeAddresses.toNat

theorem to_nat_crossed (a b : Reflection) :
    (saturatingMul a.feeSum (b.activeAddresses.setWidth 128)).toNat = min (crossed a b) (2 ^ 128 - 1) := by
  have bound := b.activeAddresses.isLt
  rw [to_nat_saturating_mul, BitVec.toNat_setWidth, Nat.mod_eq_of_lt (by omega), crossed]

theorem fee_per_active_lt_iff (a b : Reflection) (left : a.activeAddresses ≠ 0) (right : b.activeAddresses ≠ 0) :
    feePerActive a < feePerActive b ↔ crossed a b < crossed b a := by
  have leftPos : (0 : ℚ) < a.activeAddresses.toNat := by exact_mod_cast to_nat_pos a.activeAddresses left
  have rightPos : (0 : ℚ) < b.activeAddresses.toNat := by exact_mod_cast to_nat_pos b.activeAddresses right
  rw [feePerActive, feePerActive, div_lt_div_iff₀ leftPos rightPos, crossed, crossed]
  exact_mod_cast Iff.rfl

theorem fee_trend_value (prev curr : Reflection) (left : prev.activeAddresses ≠ 0) (right : curr.activeAddresses ≠ 0) :
    feeTrend prev curr =
      if crossed prev curr < crossed curr prev then 1 else if crossed curr prev < crossed prev curr then -1 else 0 := by
  have rising := fee_per_active_lt_iff prev curr left right
  have falling := fee_per_active_lt_iff curr prev right left
  rw [feeTrend]
  by_cases rises : crossed prev curr < crossed curr prev
  · rw [if_pos rises, sign_pos (sub_pos.mpr (rising.mpr rises))]
    rfl
  · rw [if_neg rises]
    by_cases falls : crossed curr prev < crossed prev curr
    · rw [if_pos falls, sign_neg (sub_neg.mpr (falling.mpr falls))]
      rfl
    · have same : feePerActive curr = feePerActive prev :=
        le_antisymm (not_lt.mp fun less => rises (rising.mp less)) (not_lt.mp fun less => falls (falling.mp less))
      rw [if_neg falls, same, sub_self, sign_zero]
      rfl

theorem stability_bias_value (prev curr : Reflection) (left : prev.activeAddresses ≠ 0) (right : curr.activeAddresses ≠ 0) :
    (computeStabilityBias prev curr).toInt =
      if min (crossed prev curr) (2 ^ 128 - 1) < min (crossed curr prev) (2 ^ 128 - 1) then 1
      else if min (crossed curr prev) (2 ^ 128 - 1) < min (crossed prev curr) (2 ^ 128 - 1) then -1
      else 0 := by
  have some : ¬ (prev.activeAddresses = 0 ∨ curr.activeAddresses = 0) := not_or.mpr ⟨left, right⟩
  rw [computeStabilityBias, if_neg some]
  dsimp only
  simp only [BitVec.lt_def, to_nat_crossed]
  split
  · rfl
  · split <;> rfl

theorem stability_bias_exact_iff (prev curr : Reflection) (left : prev.activeAddresses ≠ 0)
    (right : curr.activeAddresses ≠ 0) :
    (computeStabilityBias prev curr).toInt = feeTrend prev curr ↔
      feePerActive prev = feePerActive curr ∨ crossed prev curr < 2 ^ 128 - 1 ∨ crossed curr prev < 2 ^ 128 - 1 := by
  have rising := fee_per_active_lt_iff prev curr left right
  have falling := fee_per_active_lt_iff curr prev right left
  have equal : feePerActive prev = feePerActive curr ↔ crossed prev curr = crossed curr prev := by
    rw [eq_iff_le_not_lt, ← not_lt, rising, falling]
    omega
  rw [stability_bias_value prev curr left right, fee_trend_value prev curr left right, equal]
  rcases Nat.lt_trichotomy (crossed prev curr) (crossed curr prev) with rises | same | falls
  · rw [if_pos rises]
    split
    · omega
    · split <;> omega
  · rw [same]
    simp only [lt_self_iff_false, if_false, true_or]
  · rw [if_neg (Nat.lt_asymm falls), if_pos falls]
    split
    · omega
    · split <;> omega

end PyGrove.Consensus
