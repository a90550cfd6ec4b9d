import Mathlib.Analysis.SpecialFunctions.Log.Basic
import PyGrove.Consensus.ExactAccordion

set_option autoImplicit false

/- sim/accordion.py, the Python reference of the emission controller, read over
   exact numbers. -/
namespace PyGrove.Sim

open Words FixedPoint Consensus

structure Outcome (K : Type) where
  regime : Regime
  alphaH : K
  advance : K
  lh : K
  la : K

section
variable {K : Type} [Field K] [LinearOrder K]

def regime (lh la eps : K) : Regime :=
  if |lh| ≤ eps ∧ |la| ≤ eps then .equilibrium
  else if lh ≥ 0 ∧ la ≥ 0 then .growth
  else .contraction

-- evaluate from the two logarithms on. Dividing by zero raises.
def evaluateAt (lh la : K) (stabilityBias : ℤ) (p : AccordionParams K) : Option (Outcome K) := do
  let reg := regime lh la p.epsilon
  let alphaH ← Arith.div 1 (1 + |lh|)
  let advance ← match reg with
    | .equilibrium => some 1
    | .growth => some (1 + p.betaH * max 0 lh + p.betaA * max 0 la + p.betaS * stabilityBias)
    | .contraction => Arith.div 1 (1 + p.betaH * max 0 (-lh) + p.betaA * max 0 (-la))
  return { regime := reg, alphaH, advance, lh, la }

def evaluate (log : K → K) (rH rA : K) (stabilityBias : ℤ) (p : AccordionParams K) : Option (Outcome K) :=
  evaluateAt (if rH > 0 then log rH else 0) (if rA > 0 then log rA else 0) stabilityBias p

def advanceOf (p : AccordionParams K) (lh la bias : K) : Regime → K
  | .equilibrium => 1
  | .growth => 1 + p.betaH * max 0 lh + p.betaA * max 0 la + p.betaS * bias
  | .contraction => 1 / (1 + p.betaH * max 0 (-lh) + p.betaA * max 0 (-la))

variable [IsStrictOrderedRing K]

theorem evaluate_at_some (p : AccordionParams K) (lh la : K) (bias : ℤ) (betaH : 0 ≤ p.betaH) (betaA : 0 ≤ p.betaA) :
    evaluateAt lh la bias p =
      some { regime := regimeOf p.epsilon lh la
             alphaH := 1 / (1 + |lh|)
             advance := advanceOf p lh la (bias : K) (regimeOf p.epsilon lh la)
             lh, la } := by
  have same : regime lh la p.epsilon = regimeOf p.epsilon lh la := rfl
  have positive : 0 < 1 + |lh| := by positivity
  have denominator : 0 < 1 + p.betaH * max 0 (-lh) + p.betaA * max 0 (-la) := by positivity
  rw [evaluateAt, same]
  cases regimeOf p.epsilon lh la with
  | equilibrium => simp [exact_div _ _ positive.ne', advanceOf]
  | growth => simp [exact_div _ _ positive.ne', advanceOf]
  | contraction => simp [exact_div _ _ positive.ne', exact_div _ _ denominator.ne', advanceOf]

def Mirrors (p : AccordionParams K) (lh la : K) (bias : I8) : Prop :=
  ∃ out simulated, Consensus.evaluateAt p lh la bias = some out ∧ evaluateAt lh la bias.toInt p = some simulated ∧
    simulated.regime = out.regime ∧ simulated.alphaH = out.alphaH ∧ simulated.advance = out.perBlockAdvance

theorem mirrors_iff_advance (p : AccordionParams K) (lh la : K) (bias : I8) (betaH : 0 ≤ p.betaH) (betaA : 0 ≤ p.betaA)
    (betaS : 0 ≤ p.betaS) :
    Mirrors p lh la bias ↔ advanceOf p lh la (bias.toInt : K) (regimeOf p.epsilon lh la) =
      Consensus.advanceOf p lh la (bias.toInt : K) (regimeOf p.epsilon lh la) := by
  simp only [Mirrors, evaluate_at_exact p lh la bias betaH betaA betaS, evaluate_at_some p lh la _ betaH betaA,
    Option.some.injEq, ↓existsAndEq, true_and]

theorem growth_advances_agree (p : AccordionParams K) (lh la bias : K) (risesH : 0 ≤ lh) (risesA : 0 ≤ la) :
    advanceOf p lh la bias .growth = Consensus.advanceOf p lh la bias .growth ↔
      0 ≤ p.betaH * lh + p.betaA * la + p.betaS * bias := by
  rw [advanceOf, Consensus.advanceOf, max_comm 0 lh, max_comm 0 la, max_eq_left risesH, max_eq_left risesA, eq_comm,
    max_eq_left_iff]
  constructor <;> intro bound <;> linarith

theorem contraction_advances_agree (p : AccordionParams K) (lh la bias : K) (betaS : 0 ≤ p.betaS)
    (unit : bias = -1 ∨ bias = 0 ∨ bias = 1) :
    advanceOf p lh la bias .contraction = Consensus.advanceOf p lh la bias .contraction ↔ (bias = -1 → p.betaS = 0) := by
  have weight : 0 ≤ p.betaS * max (-bias) 0 := by positivity
  have same : advanceOf p lh la bias .contraction = Consensus.advanceOf p lh la bias .contraction ↔
      p.betaS * max (-bias) 0 = 0 := by
    rw [advanceOf, Consensus.advanceOf, max_comm 0 (-lh), max_comm 0 (-la), one_div, one_div, inv_inj]
    exact left_eq_add
  rw [same]
  rcases unit with rfl | rfl | rfl <;> norm_num

theorem mirrors_iff (p : AccordionParams K) (lh la : K) (bias : I8) (betaH : 0 ≤ p.betaH) (betaA : 0 ≤ p.betaA)
    (betaS : 0 ≤ p.betaS) (unit : bias.toInt = -1 ∨ bias.toInt = 0 ∨ bias.toInt = 1) :
    Mirrors p lh la bias ↔
      (|lh| ≤ p.epsilon ∧ |la| ≤ p.epsilon) ∨
        (0 ≤ lh ∧ 0 ≤ la ∧ 0 ≤ p.betaH * lh + p.betaA * la + p.betaS * bias.toInt) ∨
        ((lh < 0 ∨ la < 0) ∧ (bias.toInt = -1 → p.betaS = 0)) := by
  rw [mirrors_iff_advance p lh la bias betaH betaA betaS, regimeOf]
  by_cases steady : |lh| ≤ p.epsilon ∧ |la| ≤ p.epsilon
  · simp [steady, advanceOf, Consensus.advanceOf]
  · rw [if_neg steady]
    by_cases rising : 0 ≤ lh ∧ 0 ≤ la
    · rw [if_pos rising, growth_advances_agree p lh la _ rising.1 rising.2]
      simp [steady, rising, not_lt.mpr rising.1, not_lt.mpr rising.2]
    · have unit' : (bias.toInt : K) = -1 ∨ (bias.toInt : K) = 0 ∨ (bias.toInt : K) = 1 := by exact_mod_cast unit
      have falling : lh < 0 ∨ la < 0 := by rwa [not_and_or, not_le, not_le] at rising
      have negative : (bias.toInt : K) = -1 ↔ bias.toInt = -1 := by exact_mod_cast Iff.rfl
      rw [if_neg rising, contraction_advances_agree p lh la _ betaS unit', negative]
      constructor
      · exact fun weightless => .inr (.inr ⟨falling, weightless⟩)
      · rintro (band | ⟨risesH, risesA, _⟩ | ⟨_, weightless⟩)
        · exact absurd band steady
        · exact absurd ⟨risesH, risesA⟩ rising
        · exact weightless

end

theorem warming_chain_mirrored :
    Mirrors (⟨1 / 20, 1 / 2, 1 / 2, 1 / 4⟩ : AccordionParams ℚ) (1 / 10) (1 / 5) 1 := by
  refine (mirrors_iff _ _ _ _ ?_ ?_ ?_ ?_).mpr ?_
  · norm_num
  · norm_num
  · norm_num
  · decide
  · refine .inr (.inl ⟨?_, ?_, ?_⟩)
    · norm_num
    · norm_num
    · rw [show (1 : I8).toInt = 1 from by decide]
      norm_num

theorem negative_bias_not_mirrored :
    ¬ Mirrors (⟨1 / 20, 1 / 2, 1 / 2, 1 / 4⟩ : AccordionParams ℝ) (Real.log (1 / 2)) (Real.log (1 / 2)) (-1) ∧
      ¬ Mirrors (⟨1 / 20, 1 / 2, 1 / 2, 1 / 4⟩ : AccordionParams ℝ) (Real.log (11 / 10)) (Real.log (11 / 10)) (-1) := by
  have bias : ((-1 : I8).toInt : ℝ) = -1 := by
    rw [show (-1 : I8).toInt = -1 from by decide]
    norm_num
  constructor
  · have halved : Real.log (1 / 2 : ℝ) ≤ 1 / 2 - 1 := Real.log_le_sub_one_of_pos (by norm_num)
    have contraction : regimeOf (1 / 20 : ℝ) (Real.log (1 / 2)) (Real.log (1 / 2)) = .contraction := by
      rw [regimeOf, if_neg, if_neg]
      · rintro ⟨rises, _⟩
        linarith
      · rintro ⟨band, _⟩
        rw [abs_le] at band
        linarith
    rw [mirrors_iff_advance _ _ _ _ (by norm_num) (by norm_num) (by norm_num), contraction, bias,
      contraction_advances_agree _ _ _ _ (by norm_num) (by norm_num)]
    norm_num
  · have grown : Real.log (11 / 10 : ℝ) ≤ 11 / 10 - 1 := Real.log_le_sub_one_of_pos (by norm_num)
    have least : 1 - (11 / 10 : ℝ)⁻¹ ≤ Real.log (11 / 10) := Real.one_sub_inv_le_log_of_pos (by norm_num)
    norm_num at grown least
    have growth : regimeOf (1 / 20 : ℝ) (Real.log (11 / 10)) (Real.log (11 / 10)) = .growth := by
      rw [regimeOf, if_neg, if_pos]
      · constructor <;> linarith
      · rintro ⟨band, _⟩
        rw [abs_le] at band
        linarith
    rw [mirrors_iff_advance _ _ _ _ (by norm_num) (by norm_num) (by norm_num), growth, bias,
      growth_advances_agree _ _ _ _ (by linarith) (by linarith)]
    dsimp only
    linarith

end PyGrove.Sim
