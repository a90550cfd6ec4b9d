import Mathlib.Algebra.Order.Group.Abs
import PyGrove.Consensus.Accordion

set_option autoImplicit false

/- The controller read over exact numbers of an ordered field: nothing overflows
   and nothing is rounded. -/
namespace PyGrove.Consensus

open Words FixedPoint

section
variable {K : Type} [Field K] [LinearOrder K] [IsStrictOrderedRing K]

theorem abs_exact (v : K) : abs v = some |v| := by
  simp only [abs, exact_from_num, exact_neg, Int.cast_zero, Option.bind_eq_bind, Option.bind_some, Option.pure_def]
  split
  · rename_i negative
    rw [abs_of_neg negative]
  · rename_i positive
    rw [abs_of_nonneg (not_lt.mp positive)]

omit [IsStrictOrderedRing K] in
theorem max_zero_exact (v : K) : maxZero v = some (max v 0) := by
  simp only [maxZero, exact_from_num, Int.cast_zero, Option.bind_eq_bind, Option.bind_some, Option.pure_def]
  split
  · rename_i negative
    rw [max_eq_right negative.le]
  · rename_i positive
    rw [max_eq_left (not_lt.mp positive)]

def regimeOf (epsilon lh la : K) : Regime :=
  if |lh| ≤ epsilon ∧ |la| ≤ epsilon then .equilibrium else if 0 ≤ lh ∧ 0 ≤ la then .growth else .contraction

theorem choose_regime_exact (epsilon lh la : K) : chooseRegime epsilon lh la = some (regimeOf epsilon lh la) := by
  simp only [chooseRegime, withinBand, abs_exact, exact_from_num, Int.cast_zero, Option.bind_eq_bind, Option.bind_some,
    Option.pure_def, regimeOf]
  by_cases sizeH : |lh| ≤ epsilon
  · simp [sizeH]
  · simp [sizeH]

omit [IsStrictOrderedRing K] in
theorem growth_advance_exact (params : AccordionParams K) (lh la bias : K) :
    growthAdvance params lh la bias =
      some (max (1 + params.betaH * max lh 0 + params.betaA * max la 0 + params.betaS * bias) 1) := by
  simp only [growthAdvance, max_zero_exact, exact_from_num, exact_mul, exact_add, Int.cast_one, Option.bind_eq_bind,
    Option.bind_some, Option.pure_def]
  split
  · rename_i below
    rw [max_eq_right below.le]
  · rename_i above
    rw [max_eq_left (not_lt.mp above)]

theorem contraction_advance_exact (params : AccordionParams K) (lh la bias : K) (betaH : 0 ≤ params.betaH)
    (betaA : 0 ≤ params.betaA) (betaS : 0 ≤ params.betaS) :
    contractionAdvance params lh la bias =
      some (1 / (1 + params.betaH * max (-lh) 0 + params.betaA * max (-la) 0 + params.betaS * max (-bias) 0)) := by
  have positive : 0 < 1 + params.betaH * max (-lh) 0 + params.betaA * max (-la) 0 + params.betaS * max (-bias) 0 := by
    positivity
  simp only [contractionAdvance, max_zero_exact, exact_from_num, exact_neg, exact_mul, exact_add, exact_div _ _ positive.ne',
    Int.cast_one, Option.bind_eq_bind, Option.bind_some]

def advanceOf (params : AccordionParams K) (lh la bias : K) : Regime → K
  | .equilibrium => 1
  | .growth => max (1 + params.betaH * max lh 0 + params.betaA * max la 0 + params.betaS * bias) 1
  | .contraction => 1 / (1 + params.betaH * max (-lh) 0 + params.betaA * max (-la) 0 + params.betaS * max (-bias) 0)

theorem evaluate_at_exact (params : AccordionParams K) (lh la : K) (bias : I8) (betaH : 0 ≤ params.betaH)
    (betaA : 0 ≤ params.betaA) (betaS : 0 ≤ params.betaS) :
    evaluateAt params lh la bias =
      some { regime := regimeOf params.epsilon lh la
             alphaH := 1 / (1 + |lh|)
             perBlockAdvance := advanceOf params lh la (bias.toInt : K) (regimeOf params.epsilon lh la) } := by
  have positive : 0 < 1 + |lh| := by positivity
  have moved : advance params lh la (bias.toInt : K) (regimeOf params.epsilon lh la) =
      some (advanceOf params lh la (bias.toInt : K) (regimeOf params.epsilon lh la)) := by
    cases regimeOf params.epsilon lh la with
    | equilibrium => simp [advance, advanceOf]
    | growth => exact growth_advance_exact params lh la _
    | contraction => exact contraction_advance_exact params lh la _ betaH betaA betaS
  simp only [evaluateAt, choose_regime_exact, abs_exact, exact_from_num, exact_add, Int.cast_one, exact_div _ _ positive.ne',
    moved, Option.bind_eq_bind, Option.bind_some, Option.pure_def]

end

end PyGrove.Consensus
