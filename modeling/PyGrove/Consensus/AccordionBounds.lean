import PyGrove.Consensus.LnFixed

set_option autoImplicit false

namespace PyGrove.Consensus

open Words FixedPoint Fixed

structure WeightsInRange (params : AccordionParams I64F64) : Prop where
  betaH : params.betaH.value ∈ Set.Icc 0 1
  betaA : params.betaA.value ∈ Set.Icc 0 1
  betaS : params.betaS.value ∈ Set.Icc 0 1

theorem defaults_in_range : WeightsInRange .defaults := by
  constructor <;> norm_num [AccordionParams.defaults, value]

theorem unit_bits (x : I64F64) (unit : x.value ∈ Set.Icc 0 1) : 0 ≤ x.bits ∧ x.bits ≤ 2 ^ 64 := by
  obtain ⟨low, high⟩ := unit
  rw [le_value, zero_mul, Int.cast_nonneg_iff] at low
  rw [value_le, one_mul] at high
  exact ⟨low, by exact_mod_cast high⟩

section
variable [RoundingModes]

theorem ln_size (x l : I64F64) (clamp : InClamp x) (result : lnFixed x = some l) :
    -(32 * 2 ^ 64) ≤ l.bits ∧ l.bits ≤ 32 * 2 ^ 64 := by
  obtain ⟨_, _, final, run⟩ := ln_run_of_result x l clamp result
  have low := run.small.sumLow
  have high := run.small.sumHigh
  rw [run.double]
  push_cast at low high
  omega

theorem abs_some (v : I64F64) (low : -2 ^ 100 ≤ v.bits) (high : v.bits ≤ 2 ^ 100) :
    ∃ c, abs v = some c ∧ c.bits = |v.bits| := by
  obtain ⟨zero, zeroMade, zeroBits⟩ := from_num_small 0 (by norm_num) (by norm_num)
  simp only [abs, zeroMade, Option.bind_eq_bind, Option.bind_some, Option.pure_def, lt_bits, zeroBits, zero_mul]
  split
  · rename_i negative
    obtain ⟨c, made, bits⟩ := neg_fits v (fits_of_le _ (by omega) (by omega))
    exact ⟨c, made, by rw [bits, abs_of_neg negative]⟩
  · rename_i positive
    exact ⟨v, rfl, (abs_of_nonneg (not_lt.mp positive)).symm⟩

theorem max_zero_some (v : I64F64) : ∃ c, maxZero v = some c ∧ c.bits = max v.bits 0 := by
  obtain ⟨zero, zeroMade, zeroBits⟩ := from_num_small 0 (by norm_num) (by norm_num)
  rw [zero_mul] at zeroBits
  simp only [maxZero, zeroMade, Option.bind_eq_bind, Option.bind_some, Option.pure_def, lt_bits, zeroBits]
  split
  · rename_i negative
    exact ⟨zero, rfl, by rw [zeroBits, max_eq_right negative.le]⟩
  · rename_i positive
    exact ⟨v, rfl, (max_eq_left (not_lt.mp positive)).symm⟩

theorem choose_regime_fixed (epsilon lh la : I64F64) (lowH : -2 ^ 100 ≤ lh.bits) (highH : lh.bits ≤ 2 ^ 100)
    (lowA : -2 ^ 100 ≤ la.bits) (highA : la.bits ≤ 2 ^ 100) : ∃ regime, chooseRegime epsilon lh la = some regime := by
  obtain ⟨zero, zeroMade, _⟩ := from_num_small 0 (by norm_num) (by norm_num)
  obtain ⟨sizeH, madeH, _⟩ := abs_some lh lowH highH
  obtain ⟨sizeA, madeA, _⟩ := abs_some la lowA highA
  by_cases narrow : sizeH ≤ epsilon
  · simp [chooseRegime, withinBand, zeroMade, madeH, madeA, narrow]
  · simp [chooseRegime, withinBand, zeroMade, madeH, narrow]

theorem bellow_part_some (beta v : I64F64) (weight : beta.value ∈ Set.Icc 0 1) (high : v.bits ≤ 2 ^ 100) :
    ∃ bellow part, maxZero v = some bellow ∧ Arith.mul beta bellow = some part ∧
      part.bits = mulBits 64 beta.bits (max v.bits 0) ∧ 0 ≤ part.bits ∧ part.bits ≤ max v.bits 0 := by
  obtain ⟨low, unit⟩ := unit_bits beta weight
  obtain ⟨bellow, bellowMade, bellowBits⟩ := max_zero_some v
  have bounds := mul_bits_nonneg (max v.bits 0) beta.bits 64 (le_max_right _ _) low unit
  rw [mul_bits_comm, ← bellowBits] at bounds
  obtain ⟨part, made, bits⟩ := mul_fits beta bellow (fits_of_le _ (by omega) (by omega))
  rw [← bits] at bounds
  rw [bellowBits] at bits bounds
  exact ⟨bellow, part, bellowMade, made, bits, bounds⟩

theorem falling_part_some (beta v : I64F64) (weight : beta.value ∈ Set.Icc 0 1) (low : -2 ^ 100 ≤ v.bits)
    (high : v.bits ≤ 2 ^ 100) :
    ∃ down bellow part, Arith.neg v = some down ∧ maxZero down = some bellow ∧ Arith.mul beta bellow = some part ∧
      0 ≤ part.bits ∧ part.bits ≤ max (-v.bits) 0 := by
  obtain ⟨down, downMade, downBits⟩ := neg_fits v (fits_of_le _ (by omega) (by omega))
  obtain ⟨bellow, part, bellowMade, partMade, _, bounds⟩ := bellow_part_some beta down weight (by omega)
  rw [downBits] at bounds
  exact ⟨down, bellow, part, downMade, bellowMade, partMade, bounds⟩

theorem growth_advance_some (params : AccordionParams I64F64) (lh la bias : I64F64) (n : ℤ) (weights : WeightsInRange params)
    (highH : lh.bits ≤ 32 * 2 ^ 64) (highA : la.bits ≤ 32 * 2 ^ 64) (biasBits : bias.bits = n * 2 ^ 64) (low : -1 ≤ n)
    (high : n ≤ 1) :
    ∃ adv, growthAdvance params lh la bias = some adv ∧
      adv.bits = max (2 ^ 64 + mulBits 64 params.betaH.bits (max lh.bits 0) + mulBits 64 params.betaA.bits (max la.bits 0) +
        params.betaS.bits * n) (2 ^ 64) := by
  obtain ⟨one, oneMade, oneBits⟩ := from_num_small 1 (by norm_num) (by norm_num)
  obtain ⟨betaS, betaS'⟩ := unit_bits _ weights.betaS
  obtain ⟨bellowH, partH, bellowHMade, partHMade, partHBits, partHLow, partHHigh⟩ :=
    bellow_part_some params.betaH lh weights.betaH (by omega)
  obtain ⟨bellowA, partA, bellowAMade, partAMade, partABits, partALow, partAHigh⟩ :=
    bellow_part_some params.betaA la weights.betaA (by omega)
  have shifted : mulBits 64 params.betaS.bits bias.bits = params.betaS.bits * n := by rw [biasBits, mul_bits_whole]
  have shiftedLow : -2 ^ 64 ≤ params.betaS.bits * n := by nlinarith
  have shiftedHigh : params.betaS.bits * n ≤ 2 ^ 64 := by nlinarith
  obtain ⟨shift, shiftMade, shiftBits⟩ := mul_fits params.betaS bias (fits_of_le _ (by omega) (by omega))
  obtain ⟨miners, minersMade, minersBits⟩ := add_fits one partH (fits_of_le _ (by omega) (by omega))
  obtain ⟨both, bothMade, bothBits⟩ := add_fits miners partA (fits_of_le _ (by omega) (by omega))
  obtain ⟨raw, rawMade, rawBits⟩ := add_fits both shift (fits_of_le _ (by omega) (by omega))
  have value : raw.bits = 2 ^ 64 + mulBits 64 params.betaH.bits (max lh.bits 0) +
      mulBits 64 params.betaA.bits (max la.bits 0) + params.betaS.bits * n := by
    rw [rawBits, bothBits, minersBits, oneBits, partHBits, partABits, shiftBits, shifted, one_mul]
  simp only [growthAdvance, oneMade, bellowHMade, bellowAMade, partHMade, partAMade, shiftMade, minersMade, bothMade, rawMade,
    Option.bind_eq_bind, Option.bind_some, Option.pure_def, lt_bits, ← value]
  split
  · exact ⟨one, rfl, by omega⟩
  · exact ⟨raw, rfl, by omega⟩

theorem contraction_advance_some (params : AccordionParams I64F64) (lh la bias : I64F64) (n : ℤ) (weights : WeightsInRange params)
    (lowH : -(32 * 2 ^ 64) ≤ lh.bits) (highH : lh.bits ≤ 32 * 2 ^ 64) (lowA : -(32 * 2 ^ 64) ≤ la.bits)
    (highA : la.bits ≤ 32 * 2 ^ 64) (biasBits : bias.bits = n * 2 ^ 64) (low : -1 ≤ n) (high : n ≤ 1) :
    ∃ adv, contractionAdvance params lh la bias = some adv ∧ 0 < adv.bits ∧ adv.bits ≤ 2 ^ 64 := by
  obtain ⟨one, oneMade, oneBits⟩ := from_num_small 1 (by norm_num) (by norm_num)
  obtain ⟨downH, bellowH, partH, downHMade, bellowHMade, partHMade, partHLow, partHHigh⟩ :=
    falling_part_some params.betaH lh weights.betaH (by omega) (by omega)
  obtain ⟨downA, bellowA, partA, downAMade, bellowAMade, partAMade, partALow, partAHigh⟩ :=
    falling_part_some params.betaA la weights.betaA (by omega) (by omega)
  obtain ⟨downS, cooling, partS, downSMade, coolingMade, partSMade, partSLow, partSHigh⟩ :=
    falling_part_some params.betaS bias weights.betaS (by omega) (by omega)
  obtain ⟨miners, minersMade, minersBits⟩ := add_fits one partH (fits_of_le _ (by omega) (by omega))
  obtain ⟨both, bothMade, bothBits⟩ := add_fits miners partA (fits_of_le _ (by omega) (by omega))
  obtain ⟨denom, denomMade, denomBits⟩ := add_fits both partS (fits_of_le _ (by omega) (by omega))
  have bounds := div_bits_nonneg one.bits denom.bits 64 (by omega) (by omega)
  have positive := div_bits_pos one.bits denom.bits 64 (by omega) (by omega)
  obtain ⟨adv, advMade, advBits⟩ := div_fits one denom (by omega) (fits_of_le _ (by omega) (by omega))
  refine ⟨adv, ?_, by omega, by omega⟩
  simp only [contractionAdvance, oneMade, downHMade, downAMade, downSMade, bellowHMade, bellowAMade, coolingMade, partHMade,
    partAMade, partSMade, minersMade, bothMade, denomMade, advMade, Option.bind_eq_bind, Option.bind_some]

theorem weighted_value (truncates : ∀ q : ℚ, 0 ≤ q → (RoundingModes.mul.round q : ℚ) ≤ q) (beta top : I64F64) (v : ℤ)
    (low : 0 ≤ beta.bits) (positive : 0 ≤ v) (le : v ≤ top.bits) :
    (mulBits 64 beta.bits v : ℚ) ≤ beta.value * top.value * 2 ^ 64 := by
  have low' : (0 : ℚ) ≤ beta.bits := by exact_mod_cast low
  have positive' : (0 : ℚ) ≤ v := by exact_mod_cast positive
  have le' : (v : ℚ) ≤ top.bits := by exact_mod_cast le
  calc (mulBits 64 beta.bits v : ℚ) ≤ beta.bits * v / (2 ^ 64 : ℤ) := truncates _ (by positivity)
    _ ≤ beta.bits * top.bits / (2 ^ 64 : ℤ) := by gcongr
    _ = beta.value * top.value * 2 ^ 64 := by
        rw [value, value]
        push_cast
        ring

theorem growth_advance_bounds (truncates : ∀ q : ℚ, 0 ≤ q → (RoundingModes.mul.round q : ℚ) ≤ q) (params : AccordionParams I64F64)
    (lh la top adv : I64F64) (n : ℤ) (weights : WeightsInRange params) (high : n ≤ 1) (positive : 0 ≤ top.bits)
    (highH : lh.bits ≤ top.bits) (highA : la.bits ≤ top.bits)
    (bits : adv.bits = max (2 ^ 64 + mulBits 64 params.betaH.bits (max lh.bits 0) +
      mulBits 64 params.betaA.bits (max la.bits 0) + params.betaS.bits * n) (2 ^ 64)) :
    1 ≤ adv.value ∧ adv.value ≤ 1 + (params.betaH.value + params.betaA.value) * top.value + params.betaS.value := by
  obtain ⟨betaH, _⟩ := unit_bits _ weights.betaH
  obtain ⟨betaA, _⟩ := unit_bits _ weights.betaA
  obtain ⟨betaS, _⟩ := unit_bits _ weights.betaS
  have partH := weighted_value truncates params.betaH top (max lh.bits 0) betaH (le_max_right _ _) (max_le highH positive)
  have partA := weighted_value truncates params.betaA top (max la.bits 0) betaA (le_max_right _ _) (max_le highA positive)
  have shift : ((params.betaS.bits * n : ℤ) : ℚ) ≤ params.betaS.bits := by
    exact_mod_cast (by nlinarith : params.betaS.bits * n ≤ params.betaS.bits)
  have weightS : params.betaS.value * 2 ^ 64 = params.betaS.bits := by
    rw [value]
    ring
  have extra : 0 ≤ (params.betaH.value + params.betaA.value) * top.value + params.betaS.value := by
    have topValue : 0 ≤ top.value := by
      rw [le_value, zero_mul]
      exact_mod_cast positive
    exact add_nonneg (mul_nonneg (add_nonneg weights.betaH.1 weights.betaA.1) topValue) weights.betaS.1
  constructor
  · rw [le_value, one_mul, bits]
    exact_mod_cast le_max_right _ _
  · rw [value_le, bits, Int.cast_max]
    push_cast at shift ⊢
    exact max_le (by linarith) (by linarith)

theorem alpha_some (lh : I64F64) (low : -(32 * 2 ^ 64) ≤ lh.bits) (high : lh.bits ≤ 32 * 2 ^ 64) :
    ∃ one size damping alphaH : I64F64, Arith.fromNum 1 = some one ∧ abs lh = some size ∧ Arith.add one size = some damping ∧
      Arith.div one damping = some alphaH ∧ 0 < alphaH.value ∧ alphaH.value ≤ 1 := by
  obtain ⟨one, oneMade, oneBits⟩ := from_num_small 1 (by norm_num) (by norm_num)
  obtain ⟨size, sizeMade, sizeBits⟩ := abs_some lh (by omega) (by omega)
  have sizeLow : 0 ≤ size.bits := by
    rw [sizeBits]
    exact abs_nonneg _
  have sizeHigh : size.bits ≤ 32 * 2 ^ 64 := by
    rw [sizeBits]
    exact abs_le.mpr ⟨low, high⟩
  obtain ⟨damping, dampingMade, dampingBits⟩ := add_fits one size (fits_of_le _ (by omega) (by omega))
  have bounds := div_bits_nonneg one.bits damping.bits 64 (by omega) (by omega)
  have positive := div_bits_pos one.bits damping.bits 64 (by omega) (by omega)
  obtain ⟨alphaH, made, bits⟩ := div_fits one damping (by omega) (fits_of_le _ (by omega) (by omega))
  exact ⟨one, size, damping, alphaH, oneMade, sizeMade, dampingMade, made, (value_pos alphaH).mpr (by omega),
    (value_le_one alphaH).mpr (by omega)⟩

def AdvanceBounded (params : AccordionParams I64F64) (lnFour adv : I64F64) : Regime → Prop
  | .equilibrium => adv.value = 1
  | .growth => 1 ≤ adv.value ∧
      adv.value ≤ 1 + (params.betaH.value + params.betaA.value) * lnFour.value + params.betaS.value
  | .contraction => 0 < adv.value ∧ adv.value ≤ 1

theorem advance_some (truncates : ∀ q : ℚ, 0 ≤ q → (RoundingModes.mul.round q : ℚ) ≤ q) (params : AccordionParams I64F64)
    (lh la bias lnFour : I64F64) (n : ℤ) (weights : WeightsInRange params) (lowH : -(32 * 2 ^ 64) ≤ lh.bits)
    (lowA : -(32 * 2 ^ 64) ≤ la.bits) (topH : lh.bits ≤ lnFour.bits) (topA : la.bits ≤ lnFour.bits)
    (positive : 0 ≤ lnFour.bits) (top : lnFour.bits ≤ 32 * 2 ^ 64) (biasBits : bias.bits = n * 2 ^ 64) (low : -1 ≤ n)
    (high : n ≤ 1) (regime : Regime) :
    ∃ adv, advance params lh la bias regime = some adv ∧ AdvanceBounded params lnFour adv regime := by
  cases regime with
  | equilibrium =>
      obtain ⟨one, made, bits⟩ := from_num_small 1 (by norm_num) (by norm_num)
      exact ⟨one, made, (value_eq one 1).mpr (by rw [bits]; norm_cast)⟩
  | growth =>
      obtain ⟨adv, made, bits⟩ := growth_advance_some params lh la bias n weights (by omega) (by omega) biasBits low high
      exact ⟨adv, made, growth_advance_bounds truncates params lh la lnFour adv n weights high positive topH topA bits⟩
  | contraction =>
      obtain ⟨adv, made, above, below⟩ := contraction_advance_some params lh la bias n weights lowH (by omega) lowA (by omega)
        biasBits low high
      exact ⟨adv, made, (value_pos adv).mpr above, (value_le_one adv).mpr below⟩

theorem accordion_safe (truncates : ∀ q : ℚ, 0 ≤ q → (RoundingModes.mul.round q : ℚ) ≤ q) (params : AccordionParams I64F64)
    (rH rA : I64F64) (stabilityBias : I8) (clampH : InClamp rH) (clampA : InClamp rA) (weights : WeightsInRange params)
    (unit : stabilityBias.toInt = -1 ∨ stabilityBias.toInt = 0 ∨ stabilityBias.toInt = 1) :
    ∃ out lnFour, evaluate params rH rA stabilityBias = some out ∧ lnFixed four = some lnFour ∧
      0 < out.alphaH.value ∧ out.alphaH.value ≤ 1 ∧ AdvanceBounded params lnFour out.perBlockAdvance out.regime := by
  obtain ⟨_, _, _, lh, runH⟩ := ln_fixed_run rH clampH
  obtain ⟨_, _, _, la, runA⟩ := ln_fixed_run rA clampA
  obtain ⟨_, _, _, lnFour, runFour⟩ := ln_fixed_run four four_in_clamp
  obtain ⟨lowH, highH⟩ := ln_size rH lh clampH runH.result
  obtain ⟨lowA, highA⟩ := ln_size rA la clampA runA.result
  obtain ⟨_, top⟩ := ln_size four lnFour four_in_clamp runFour.result
  have topH : lh ≤ lnFour :=
    ln_mono rH four lh lnFour clampH four_in_clamp ((in_clamp_bits rH).mp clampH).2 runH.result runFour.result
  have topA : la ≤ lnFour :=
    ln_mono rA four la lnFour clampA four_in_clamp ((in_clamp_bits rA).mp clampA).2 runA.result runFour.result
  have positive : 0 ≤ lnFour.bits := (ln_sign four lnFour four_in_clamp runFour.result).1 (by decide)
  obtain ⟨one, size, damping, alphaH, oneMade, sizeMade, dampingMade, alphaMade, alphaBounds⟩ := alpha_some lh lowH highH
  obtain ⟨regime, chosen⟩ := choose_regime_fixed params.epsilon lh la (by omega) (by omega) (by omega) (by omega)
  obtain ⟨bias, biasMade, biasBits⟩ := from_num_small stabilityBias.toInt (by omega) (by omega)
  obtain ⟨adv, advMade, bounded⟩ := advance_some truncates params lh la bias lnFour _ weights lowH lowA topH topA positive top
    biasBits (by omega) (by omega) regime
  refine ⟨⟨regime, alphaH, adv⟩, lnFour, ?_, runFour.result, alphaBounds.1, alphaBounds.2, bounded⟩
  simp only [evaluate, evaluateAt, runH.result, runA.result, oneMade, sizeMade, dampingMade, alphaMade, chosen, biasMade, advMade,
    Option.bind_eq_bind, Option.bind_some, Option.pure_def]

end

open Sample in
theorem doubling_chain_safe :
    ∃ out lnFour, evaluate .defaults ⟨2 ^ 65, by decide, by decide⟩ ⟨2 ^ 63, by decide, by decide⟩ (-1) = some out ∧
      lnFixed four = some lnFour ∧ 0 < out.alphaH.value ∧ out.alphaH.value ≤ 1 ∧
      AdvanceBounded .defaults lnFour out.perBlockAdvance out.regime :=
  accordion_safe (fun q _ => Int.floor_le q) .defaults _ _ _ ((in_clamp_bits _).mpr ⟨by norm_num, by norm_num⟩)
    ((in_clamp_bits _).mpr ⟨by norm_num, by norm_num⟩) defaults_in_range (by decide)

end PyGrove.Consensus
