import PyGrove.Lib.FixedPoint
import PyGrove.Lib.Words

set_option autoImplicit false

/- The emission controller. It is written over any arithmetic: the node runs it
   on Q64.64 numbers, where each operation can overflow and products and
   quotients are rounded, and the same formulas can be read over exact numbers. -/
namespace PyGrove.Consensus

open Words FixedPoint

abbrev I64F64 := Fixed 128 64

structure AccordionParams (α : Type) where
  epsilon : α
  betaH : α
  betaA : α
  betaS : α

-- I64F64::from_num(0.05) is the double nearest to 0.05, which Q64.64 holds exactly.
def AccordionParams.defaults : AccordionParams I64F64 where
  epsilon := ⟨922337203685477632, by decide, by decide⟩
  betaH := ⟨2 ^ 63, by decide, by decide⟩
  betaA := ⟨2 ^ 63, by decide, by decide⟩
  betaS := ⟨0, by decide, by decide⟩

inductive Regime where
  | equilibrium
  | growth
  | contraction
deriving DecidableEq

structure AccordionOutcome (α : Type) where
  regime : Regime
  alphaH : α
  perBlockAdvance : α
deriving DecidableEq

section
variable {α : Type} [Arith α] [LinearOrder α]

def lnStep (y2 : α) (state : α × α) (n : Nat) : Option (α × α) := do
  let term ← Arith.mul state.2 y2
  let denom ← Arith.fromNum (2 * n + 1)
  let sum ← Arith.add state.1 (← Arith.div term denom)
  return (sum, term)

def lnFixed (x : α) : Option α := do
  let one ← Arith.fromNum 1
  let zero ← Arith.fromNum 0
  if x ≤ zero then return zero
  let y ← Arith.div (← Arith.sub x one) (← Arith.add x one)
  let y2 ← Arith.mul y y
  let (sum, _) ← (List.range' 1 15).foldlM (lnStep y2) (y, y)
  Arith.mul sum (← Arith.fromNum 2)

def abs (v : α) : Option α := do
  let zero ← Arith.fromNum 0
  if v < zero then Arith.neg v else return v

def maxZero (v : α) : Option α := do
  let zero ← Arith.fromNum 0
  return if v < zero then zero else v

def withinBand (epsilon lh la : α) : Option Bool := do
  let sizeH ← abs lh
  if sizeH ≤ epsilon then return decide ((← abs la) ≤ epsilon) else return false

def chooseRegime (epsilon lh la : α) : Option Regime := do
  let zero ← Arith.fromNum 0
  let steady ← withinBand epsilon lh la
  return if steady then .equilibrium else if zero ≤ lh ∧ zero ≤ la then .growth else .contraction

def growthAdvance (params : AccordionParams α) (lh la bias : α) : Option α := do
  let one ← Arith.fromNum 1
  let miners ← Arith.add one (← Arith.mul params.betaH (← maxZero lh))
  let both ← Arith.add miners (← Arith.mul params.betaA (← maxZero la))
  let raw ← Arith.add both (← Arith.mul params.betaS bias)
  return if raw < one then one else raw

def contractionAdvance (params : AccordionParams α) (lh la bias : α) : Option α := do
  let one ← Arith.fromNum 1
  let miners ← Arith.add one (← Arith.mul params.betaH (← maxZero (← Arith.neg lh)))
  let both ← Arith.add miners (← Arith.mul params.betaA (← maxZero (← Arith.neg la)))
  let denom ← Arith.add both (← Arith.mul params.betaS (← maxZero (← Arith.neg bias)))
  Arith.div one denom

def advance (params : AccordionParams α) (lh la bias : α) : Regime → Option α
  | .equilibrium => Arith.fromNum 1
  | .growth => growthAdvance params lh la bias
  | .contraction => contractionAdvance params lh la bias

def evaluateAt (params : AccordionParams α) (lh la : α) (stabilityBias : I8) : Option (AccordionOutcome α) := do
  let one ← Arith.fromNum 1
  let regime ← chooseRegime params.epsilon lh la
  let alphaH ← Arith.div one (← Arith.add one (← abs lh))
  let bias ← Arith.fromNum stabilityBias.toInt
  let perBlockAdvance ← advance params lh la bias regime
  return { regime, alphaH, perBlockAdvance }

def evaluate (params : AccordionParams α) (rH rA : α) (stabilityBias : I8) : Option (AccordionOutcome α) := do
  let lh ← lnFixed rH
  let la ← lnFixed rA
  evaluateAt params lh la stabilityBias

theorem choose_regime_some (epsilon lh la : α) (regime : Regime) (chosen : chooseRegime epsilon lh la = some regime) :
    ∃ zero, Arith.fromNum 0 = some zero ∧ (regime = .growth → zero ≤ lh ∧ zero ≤ la) ∧
      (regime = .contraction → lh < zero ∨ la < zero) := by
  simp only [chooseRegime, Option.bind_eq_bind, Option.bind_eq_some_iff, Option.pure_def, Option.some.injEq] at chosen
  obtain ⟨zero, made, steady, _, rfl⟩ := chosen
  refine ⟨zero, made, ?_⟩
  cases steady with
  | true => simp
  | false =>
      by_cases rising : zero ≤ lh ∧ zero ≤ la
      · simp [rising]
      · simp only [Bool.false_eq_true, if_false, if_neg rising, reduceCtorEq, false_implies, true_and, forall_const]
        rwa [not_and_or, not_le, not_le] at rising

theorem evaluate_some (params : AccordionParams α) (rH rA : α) (stabilityBias : I8) (out : AccordionOutcome α)
    (evaluated : evaluate params rH rA stabilityBias = some out) :
    ∃ lh la, lnFixed rH = some lh ∧ lnFixed rA = some la ∧ chooseRegime params.epsilon lh la = some out.regime := by
  simp only [evaluate, evaluateAt, Option.bind_eq_bind, Option.bind_eq_some_iff, Option.pure_def,
    Option.some.injEq] at evaluated
  obtain ⟨lh, lnH, la, lnA, _, _, regime, chosen, _, _, _, _, _, _, _, _, _, _, rfl⟩ := evaluated
  exact ⟨lh, la, lnH, lnA, chosen⟩

end

end PyGrove.Consensus

namespace PyGrove.Sample

open FixedPoint

-- A product is shifted down to its units, a quotient is cut toward zero.
scoped instance modes : RoundingModes := ⟨.down, .towardZero⟩

end PyGrove.Sample
