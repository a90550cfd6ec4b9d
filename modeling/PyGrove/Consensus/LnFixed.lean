import PyGrove.Lib.Steps
import PyGrove.Consensus.Accordion

set_option autoImplicit false

namespace PyGrove.Consensus

open Words Steps FixedPoint Fixed

theorem fits_of_le (bits : ℤ) (low : -2 ^ 100 ≤ bits) (high : bits ≤ 2 ^ 100) : Fits 128 bits := by
  constructor <;> norm_num at * <;> omega

theorem one_le_value (x : I64F64) : 1 ≤ x.value ↔ 2 ^ 64 ≤ x.bits := by
  rw [le_value, one_mul]
  norm_cast

theorem value_le_one (x : I64F64) : x.value ≤ 1 ↔ x.bits ≤ 2 ^ 64 := by
  rw [value_le, one_mul]
  norm_cast

theorem value_nonneg (x : I64F64) : 0 ≤ x.value ↔ 0 ≤ x.bits := by
  rw [le_value, zero_mul, Int.cast_nonneg_iff]

theorem value_nonpos (x : I64F64) : x.value ≤ 0 ↔ x.bits ≤ 0 := by
  rw [value_le, zero_mul, Int.cast_nonpos]

theorem value_pos (x : I64F64) : 0 < x.value ↔ 0 < x.bits := by
  rw [← not_le, value_nonpos, not_le]

section
variable [RoundingModes]

theorem from_num_small (n : ℤ) (low : -128 ≤ n) (high : n ≤ 127) :
    ∃ c : I64F64, Arith.fromNum n = some c ∧ c.bits = n * 2 ^ 64 :=
  from_num_fits n (fits_of_le _ (by omega) (by omega))

theorem mul_bits_size (a b : ℤ) (low : 0 ≤ b) (high : b ≤ 2 ^ 64) (aLow : -2 ^ 64 ≤ a) (aHigh : a ≤ 2 ^ 64) :
    -2 ^ 64 ≤ mulBits 64 a b ∧ mulBits 64 a b ≤ 2 ^ 64 := by
  rcases le_total 0 a with positive | negative
  · have bounds := mul_bits_nonneg a b 64 positive low high
    omega
  · have bounds := mul_bits_nonpos a b 64 negative low high
    omega

theorem div_bits_size (a b : ℤ) (shrinks : 2 ^ 64 ≤ b) (aLow : -2 ^ 64 ≤ a) (aHigh : a ≤ 2 ^ 64) :
    -2 ^ 64 ≤ divBits 64 a b ∧ divBits 64 a b ≤ 2 ^ 64 := by
  rcases le_total 0 a with positive | negative
  · have bounds := div_bits_nonneg a b 64 positive shrinks
    omega
  · have bounds := div_bits_nonpos a b 64 negative shrinks
    omega

structure Small (y2 : ℤ) (n : ℕ) (state : I64F64 × I64F64) : Prop where
  factorLow : 0 ≤ y2
  factorHigh : y2 ≤ 2 ^ 64
  termLow : -2 ^ 64 ≤ state.2.bits
  termHigh : state.2.bits ≤ 2 ^ 64
  sumLow : -(n * 2 ^ 64) ≤ state.1.bits
  sumHigh : state.1.bits ≤ n * 2 ^ 64

theorem ln_step_some (y2 : I64F64) (state : I64F64 × I64F64) (n : ℕ) (bound : n < 16) (small : Small y2.bits n state) :
    ∃ next, lnStep y2 state n = some next ∧ next.2.bits = mulBits 64 state.2.bits y2.bits ∧
      next.1.bits = state.1.bits + divBits 64 next.2.bits ((2 * n + 1) * 2 ^ 64) ∧ Small y2.bits (n + 1) next := by
  obtain ⟨factorLow, factorHigh, termLow, termHigh, sumLow, sumHigh⟩ := small
  have termSize := mul_bits_size _ _ factorLow factorHigh termLow termHigh
  obtain ⟨term, termMade, termBits⟩ := mul_fits state.2 y2 (fits_of_le _ (by omega) (by omega))
  rw [← termBits] at termSize
  obtain ⟨denom, denomMade, denomBits⟩ := from_num_small (2 * n + 1) (by omega) (by omega)
  have partSize := div_bits_size term.bits denom.bits (by omega) termSize.1 termSize.2
  obtain ⟨part, partMade, partBits⟩ := div_fits term denom (by omega) (fits_of_le _ (by omega) (by omega))
  rw [← partBits] at partSize
  obtain ⟨sum, sumMade, sumBits⟩ := add_fits state.1 part (fits_of_le _ (by omega) (by omega))
  refine ⟨(sum, term), ?_, termBits, ?_, factorLow, factorHigh, termSize.1, termSize.2, ?_, ?_⟩
  · simp only [lnStep, termMade, denomMade, partMade, sumMade, Option.bind_eq_bind, Option.bind_some, Option.pure_def]
  · rw [sumBits, partBits, denomBits]
  · push_cast
    omega
  · push_cast
    omega

structure Above (y2 y2' : ℤ) (n : ℕ) (state state' : I64F64 × I64F64) : Prop where
  small : Small y2 n state
  small' : Small y2' n state'
  factor : y2 ≤ y2'
  termLow : 0 ≤ state.2.bits
  term : state.2.bits ≤ state'.2.bits
  sumLow : 0 ≤ state.1.bits
  sum : state.1.bits ≤ state'.1.bits

structure Below (top : ℤ) (y2 y2' : ℤ) (n : ℕ) (state state' : I64F64 × I64F64) : Prop where
  small : Small y2 n state
  small' : Small y2' n state'
  factor : y2' ≤ y2
  termHigh : state'.2.bits ≤ 0
  term : state.2.bits ≤ state'.2.bits
  sumHigh : state'.1.bits ≤ top
  sum : state.1.bits ≤ state'.1.bits

theorem part_bits_mono (n : ℕ) (t t' : ℤ) (le : t ≤ t') :
    divBits 64 t ((2 * n + 1) * 2 ^ 64) ≤ divBits 64 t' ((2 * n + 1) * 2 ^ 64) :=
  div_bits_mono _ _ _ _ _ (by omega) (by omega) (mul_le_mul_of_nonneg_right le (by omega))

theorem above_step (y2 y2' : I64F64) (n : ℕ) (state state' : I64F64 × I64F64) (bound : n < 16)
    (above : Above y2.bits y2'.bits n state state') :
    ∃ next next', lnStep y2 state n = some next ∧ lnStep y2' state' n = some next' ∧
      Above y2.bits y2'.bits (n + 1) next next' := by
  obtain ⟨small, small', factor, termLow, term, sumLow, sum⟩ := above
  obtain ⟨next, taken, nextTerm, nextSum, nextSmall⟩ := ln_step_some y2 state n bound small
  obtain ⟨next', taken', nextTerm', nextSum', nextSmall'⟩ := ln_step_some y2' state' n bound small'
  have low := mul_bits_nonneg state.2.bits y2.bits 64 termLow small.factorLow small.factorHigh
  have grows : next.2.bits ≤ next'.2.bits := by
    rw [nextTerm, nextTerm']
    exact mul_bits_mono _ _ _ _ _ (mul_le_mul term factor small.factorLow (le_trans termLow term))
  have part := div_bits_nonneg next.2.bits ((2 * n + 1) * 2 ^ 64) 64 (by omega) (by omega)
  have parts := part_bits_mono n _ _ grows
  exact ⟨next, next', taken, taken', nextSmall, nextSmall', factor, by omega, grows, by omega, by omega⟩

theorem below_step (top : ℤ) (y2 y2' : I64F64) (n : ℕ) (state state' : I64F64 × I64F64) (bound : n < 16)
    (below : Below top y2.bits y2'.bits n state state') :
    ∃ next next', lnStep y2 state n = some next ∧ lnStep y2' state' n = some next' ∧
      Below top y2.bits y2'.bits (n + 1) next next' := by
  obtain ⟨small, small', factor, termHigh, term, sumHigh, sum⟩ := below
  obtain ⟨next, taken, nextTerm, nextSum, nextSmall⟩ := ln_step_some y2 state n bound small
  obtain ⟨next', taken', nextTerm', nextSum', nextSmall'⟩ := ln_step_some y2' state' n bound small'
  have high := mul_bits_nonpos state'.2.bits y2'.bits 64 termHigh small'.factorLow small'.factorHigh
  have grows : next.2.bits ≤ next'.2.bits := by
    rw [nextTerm, nextTerm']
    refine mul_bits_mono _ _ _ _ _ ?_
    calc state.2.bits * y2.bits ≤ state'.2.bits * y2.bits := mul_le_mul_of_nonneg_right term small.factorLow
      _ ≤ state'.2.bits * y2'.bits := mul_le_mul_of_nonpos_left factor termHigh
  have part := div_bits_nonpos next'.2.bits ((2 * n + 1) * 2 ^ 64) 64 (by omega) (by omega)
  have parts := part_bits_mono n _ _ grows
  exact ⟨next, next', taken, taken', nextSmall, nextSmall', factor, by omega, grows, by omega, by omega⟩

def InClamp (x : I64F64) : Prop := 1 / 4 ≤ x.value ∧ x.value ≤ 4

omit [RoundingModes] in
theorem in_clamp_bits (x : I64F64) : InClamp x ↔ 2 ^ 62 ≤ x.bits ∧ x.bits ≤ 2 ^ 66 := by
  have low : (1 / 4 * 2 ^ 64 : ℚ) = ((2 ^ 62 : ℤ) : ℚ) := by norm_num
  have high : (4 * 2 ^ 64 : ℚ) = ((2 ^ 66 : ℤ) : ℚ) := by norm_num
  rw [InClamp, le_value, value_le, low, high, Int.cast_le, Int.cast_le]

def four : I64F64 := ⟨2 ^ 66, by decide, by decide⟩

omit [RoundingModes] in
theorem four_in_clamp : InClamp four := (in_clamp_bits four).mpr ⟨by decide, by decide⟩

def argBits (x : ℤ) : ℤ := divBits 64 (x - 2 ^ 64) (x + 2 ^ 64)

theorem arg_bits_size (x : ℤ) (positive : 0 < x) : -2 ^ 64 ≤ argBits x ∧ argBits x ≤ 2 ^ 64 := by
  have one := div_bits_whole (x + 2 ^ 64) 64 1 (by omega)
  have minusOne := div_bits_whole (x + 2 ^ 64) 64 (-1) (by omega)
  have high := div_bits_mono (x - 2 ^ 64) (1 * (x + 2 ^ 64)) _ _ 64 (by omega) (by omega)
    (mul_le_mul_of_nonneg_right (by omega) (by omega : 0 ≤ x + 2 ^ 64))
  have low := div_bits_mono (-1 * (x + 2 ^ 64)) (x - 2 ^ 64) _ _ 64 (by omega) (by omega)
    (mul_le_mul_of_nonneg_right (by omega) (by omega : 0 ≤ x + 2 ^ 64))
  rw [one] at high
  rw [minusOne] at low
  exact ⟨by rw [argBits]; omega, by rw [argBits]; omega⟩

theorem arg_bits_mono (x x' : ℤ) (positive : 0 < x) (le : x ≤ x') : argBits x ≤ argBits x' := by
  refine div_bits_mono _ _ _ _ 64 (by omega) (by omega) ?_
  nlinarith

theorem arg_bits_one : argBits (2 ^ 64) = 0 := by
  rw [argBits, sub_self]
  have whole := div_bits_whole (2 ^ 64 + 2 ^ 64) 64 0 (by norm_num)
  simpa using whole

theorem arg_bits_nonneg (x : ℤ) (above : 2 ^ 64 ≤ x) : 0 ≤ argBits x := by
  have grown := arg_bits_mono (2 ^ 64) x (by norm_num) above
  rwa [arg_bits_one] at grown

theorem arg_bits_nonpos (x : ℤ) (positive : 0 < x) (below : x ≤ 2 ^ 64) : argBits x ≤ 0 := by
  have capped := arg_bits_mono x (2 ^ 64) positive below
  rwa [arg_bits_one] at capped

theorem square_bits_size (y : ℤ) (low : -2 ^ 64 ≤ y) (high : y ≤ 2 ^ 64) :
    0 ≤ mulBits 64 y y ∧ mulBits 64 y y ≤ 2 ^ 64 := by
  have zero := mul_bits_whole 0 64 0
  have one := mul_bits_whole (2 ^ 64) 64 1
  have bottom := mul_bits_mono 0 y (0 * 2 ^ 64) y 64 (by nlinarith)
  have top := mul_bits_mono y (2 ^ 64) y (1 * 2 ^ 64) 64 (by nlinarith)
  omega

structure LnRun (x y y2 : I64F64) (final : I64F64 × I64F64) (l : I64F64) : Prop where
  arg : y.bits = argBits x.bits
  square : y2.bits = mulBits 64 y.bits y.bits
  start : Small y2.bits 1 (y, y)
  loop : (List.range' 1 15).foldlM (lnStep y2) (y, y) = some final
  small : Small y2.bits 16 final
  result : lnFixed x = some l
  double : l.bits = 2 * final.1.bits

theorem ln_fixed_run (x : I64F64) (clamp : InClamp x) : ∃ y y2 final l, LnRun x y y2 final l := by
  obtain ⟨low, high⟩ := (in_clamp_bits x).mp clamp
  obtain ⟨one, oneMade, oneBits⟩ := from_num_small 1 (by norm_num) (by norm_num)
  obtain ⟨zero, zeroMade, zeroBits⟩ := from_num_small 0 (by norm_num) (by norm_num)
  obtain ⟨two, twoMade, twoBits⟩ := from_num_small 2 (by norm_num) (by norm_num)
  obtain ⟨above, aboveMade, aboveBits⟩ := sub_fits x one (fits_of_le _ (by omega) (by omega))
  obtain ⟨total, totalMade, totalBits⟩ := add_fits x one (fits_of_le _ (by omega) (by omega))
  have argument : divBits 64 above.bits total.bits = argBits x.bits := by
    rw [argBits, aboveBits, totalBits, oneBits, one_mul]
  have argSize := arg_bits_size x.bits (by omega)
  rw [← argument] at argSize
  obtain ⟨y, yMade, yBits⟩ := div_fits above total (by omega) (fits_of_le _ (by omega) (by omega))
  rw [← yBits] at argSize
  have squareSize := square_bits_size y.bits argSize.1 argSize.2
  obtain ⟨y2, y2Made, y2Bits⟩ := mul_fits y y (fits_of_le _ (by omega) (by omega))
  rw [← y2Bits] at squareSize
  have start : Small y2.bits 1 (y, y) :=
    ⟨squareSize.1, squareSize.2, argSize.1, argSize.2, by push_cast; omega, by push_cast; omega⟩
  obtain ⟨final, loop, small⟩ := fold_option_invariant (lnStep y2) (Small y2.bits) 1 15 (y, y) start
    fun n state bound small => by
      obtain ⟨next, taken, _, _, nextSmall⟩ := ln_step_some y2 state n bound small
      exact ⟨next, taken, nextSmall⟩
  have doubled : mulBits 64 final.1.bits two.bits = final.1.bits * 2 := by rw [twoBits, mul_bits_whole]
  have sumLow := small.sumLow
  have sumHigh := small.sumHigh
  obtain ⟨l, lMade, lBits⟩ := mul_fits final.1 two (fits_of_le _ (by push_cast at *; omega) (by push_cast at *; omega))
  refine ⟨y, y2, final, l, yBits.trans argument, y2Bits, start, loop, small, ?_, by omega⟩
  have positive : ¬ x ≤ zero := by
    rw [le_bits]
    omega
  simp only [lnFixed, oneMade, zeroMade, twoMade, aboveMade, totalMade, yMade, y2Made, loop, lMade, if_neg positive,
    Option.bind_eq_bind, Option.bind_some, Option.pure_def]

theorem ln_run_of_result (x l : I64F64) (clamp : InClamp x) (result : lnFixed x = some l) :
    ∃ y y2 final, LnRun x y y2 final l := by
  obtain ⟨y, y2, final, l', run⟩ := ln_fixed_run x clamp
  cases Option.some.inj (run.result.symm.trans result)
  exact ⟨y, y2, final, run⟩

theorem ln_above (x x' y y' y2 y2' l l' : I64F64) (final final' : I64F64 × I64F64) (low : 2 ^ 64 ≤ x.bits) (le : x ≤ x')
    (run : LnRun x y y2 final l) (run' : LnRun x' y' y2' final' l') : 0 ≤ l.bits ∧ l.bits ≤ l'.bits := by
  have positive := arg_bits_nonneg x.bits low
  have grows := arg_bits_mono x.bits x'.bits (by omega) le
  rw [← run.arg] at positive
  rw [← run.arg, ← run'.arg] at grows
  have factor : y2.bits ≤ y2'.bits := by
    rw [run.square, run'.square]
    exact mul_bits_mono _ _ _ _ _ (mul_le_mul grows grows positive (le_trans positive grows))
  obtain ⟨_, _, loop, loop', above⟩ := fold_option_relation (lnStep y2) (lnStep y2') (Above y2.bits y2'.bits) 1 15 _ _
    ⟨run.start, run'.start, factor, positive, grows, positive, grows⟩ (above_step y2 y2')
  rw [run.loop] at loop
  rw [run'.loop] at loop'
  cases loop
  cases loop'
  have sumLow := above.sumLow
  have sum := above.sum
  rw [run.double, run'.double]
  omega

theorem ln_below (top : ℤ) (x x' y y' y2 y2' l l' : I64F64) (final final' : I64F64 × I64F64) (positive : 0 < x.bits)
    (high : x'.bits ≤ 2 ^ 64) (le : x ≤ x') (capped : argBits x'.bits ≤ top) (run : LnRun x y y2 final l)
    (run' : LnRun x' y' y2' final' l') : l'.bits ≤ 2 * top ∧ l.bits ≤ l'.bits := by
  have grows := arg_bits_mono x.bits x'.bits positive le
  have negative := arg_bits_nonpos x'.bits (lt_of_lt_of_le positive le) high
  rw [← run'.arg] at negative
  rw [← run.arg, ← run'.arg] at grows
  rw [← run'.arg] at capped
  have factor : y2'.bits ≤ y2.bits := by
    rw [run.square, run'.square]
    exact mul_bits_mono _ _ _ _ _ (by nlinarith)
  obtain ⟨_, _, loop, loop', below⟩ := fold_option_relation (lnStep y2) (lnStep y2') (Below top y2.bits y2'.bits) 1 15 _ _
    ⟨run.start, run'.start, factor, negative, grows, capped, grows⟩ (below_step top y2 y2')
  rw [run.loop] at loop
  rw [run'.loop] at loop'
  cases loop
  cases loop'
  have sumHigh := below.sumHigh
  have sum := below.sum
  rw [run.double, run'.double]
  omega

theorem ln_sign (x l : I64F64) (clamp : InClamp x) (result : lnFixed x = some l) :
    (2 ^ 64 ≤ x.bits → 0 ≤ l.bits) ∧ (x.bits ≤ 2 ^ 64 → l.bits ≤ 0) := by
  obtain ⟨y, y2, final, run⟩ := ln_run_of_result x l clamp result
  obtain ⟨low, _⟩ := (in_clamp_bits x).mp clamp
  constructor
  · intro above
    exact (ln_above x x y y y2 y2 l l final final above le_rfl run run).1
  · intro below
    have capped := arg_bits_nonpos x.bits (by omega) below
    exact (ln_below 0 x x y y y2 y2 l l final final (by omega) below le_rfl capped run run).1

theorem ln_mono (x x' l l' : I64F64) (clamp : InClamp x) (clamp' : InClamp x') (le : x ≤ x') (result : lnFixed x = some l)
    (result' : lnFixed x' = some l') : l ≤ l' := by
  obtain ⟨y, y2, final, run⟩ := ln_run_of_result x l clamp result
  obtain ⟨y', y2', final', run'⟩ := ln_run_of_result x' l' clamp' result'
  obtain ⟨low, _⟩ := (in_clamp_bits x).mp clamp
  rcases le_total (2 ^ 64) x.bits with above | below
  · exact (ln_above x x' y y' y2 y2' l l' final final' above le run run').2
  · rcases le_total x'.bits (2 ^ 64) with below' | above'
    · have capped := arg_bits_nonpos x'.bits (lt_of_lt_of_le (by omega) le) below'
      exact (ln_below 0 x x' y y' y2 y2' l l' final final' (by omega) below' le capped run run').2
    · rw [le_bits]
      exact le_trans ((ln_sign x l clamp result).2 below) ((ln_sign x' l' clamp' result').1 above')

theorem ln_negative (x l : I64F64) (clamp : InClamp x) (below : x.bits ≤ 2 ^ 64 - 2) (result : lnFixed x = some l) :
    l.bits < 0 := by
  obtain ⟨y, y2, final, run⟩ := ln_run_of_result x l clamp result
  obtain ⟨low, _⟩ := (in_clamp_bits x).mp clamp
  have capped : argBits x.bits ≤ -1 := by
    refine Rounding.round_le _ _ _ ?_
    have total : (0 : ℚ) < ((x.bits + 2 ^ 64 : ℤ) : ℚ) := by exact_mod_cast (by omega : (0 : ℤ) < x.bits + 2 ^ 64)
    rw [div_le_iff₀ total]
    exact_mod_cast (by omega : (x.bits - 2 ^ 64) * 2 ^ 64 ≤ -1 * (x.bits + 2 ^ 64))
  have bound := (ln_below (-1) x x y y y2 y2 l l final final (by omega) (by omega) le_rfl capped run run).1
  omega

end

end PyGrove.Consensus
