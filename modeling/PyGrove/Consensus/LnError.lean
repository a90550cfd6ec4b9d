import PyGrove.Lib.LogSeries
import PyGrove.Consensus.LnFixed

set_option autoImplicit false

namespace PyGrove.Consensus

open Words Steps FixedPoint Fixed LogSeries

section
variable {K : Type} [Field K] [LinearOrder K] [IsStrictOrderedRing K]

theorem ln_step_exact (y : K) (state : K × K) (n : ℕ)
    (series : state.1 = atanhSum y n ∧ state.2 * (y * y) = y ^ (2 * n + 1)) :
    ∃ next, lnStep (y * y) state n = some next ∧ next.1 = atanhSum y (n + 1) ∧ next.2 * (y * y) = y ^ (2 * (n + 1) + 1) := by
  obtain ⟨sum, term⟩ := series
  have odd : (2 * n + 1 : K) ≠ 0 := by positivity
  refine ⟨(atanhSum y (n + 1), y ^ (2 * n + 1)), ?_, rfl, by ring⟩
  simp only [lnStep, exact_mul, exact_from_num, exact_add, term, sum, Option.bind_eq_bind, Option.bind_some]
  push_cast
  rw [exact_div _ _ odd]
  rfl

theorem ln_fixed_exact (x : K) (positive : 0 < x) : lnFixed x = some (2 * atanhSum ((x - 1) / (x + 1)) 16) := by
  have total : x + 1 ≠ 0 := by positivity
  obtain ⟨final, loop, sum, _⟩ := fold_option_invariant (lnStep ((x - 1) / (x + 1) * ((x - 1) / (x + 1))))
    (fun n state => state.1 = atanhSum ((x - 1) / (x + 1)) n ∧
      state.2 * ((x - 1) / (x + 1) * ((x - 1) / (x + 1))) = ((x - 1) / (x + 1)) ^ (2 * n + 1)) 1 15
    ((x - 1) / (x + 1), (x - 1) / (x + 1)) ⟨by simp [atanhSum], by ring⟩ fun n state _ series =>
      ln_step_exact _ state n series
  simp only [lnFixed, exact_from_num, exact_sub, exact_add, exact_mul, Int.cast_zero, Int.cast_one, not_le.mpr positive, if_false,
    exact_div _ _ total, loop, sum, Option.bind_eq_bind, Option.bind_some]
  push_cast
  rw [mul_comm]

end

def documentedBound : ℚ := 3 / 2 * (1 / 10 ^ 9)

def WithinBound (x : I64F64) : Prop :=
  ∃ s : ℚ, lnFixed x.value = some s ∧ |(s : ℝ) - Real.log x.value| ≤ documentedBound

def argSize (bits : ℤ) : ℚ := |((bits - 2 ^ 64 : ℤ) : ℚ)| / ((bits + 2 ^ 64 : ℤ) : ℚ)

theorem log_argument (x : ℝ) (positive : 0 < x) :
    Real.log (1 + (x - 1) / (x + 1)) - Real.log (1 - (x - 1) / (x + 1)) = Real.log x := by
  have total : x + 1 ≠ 0 := by positivity
  have above : 1 + (x - 1) / (x + 1) = 2 * x / (x + 1) := by
    field_simp
    ring
  have below : 1 - (x - 1) / (x + 1) = 2 / (x + 1) := by
    field_simp
    ring
  rw [above, below, ← Real.log_div (by positivity) (by positivity)]
  congr 1
  field_simp

theorem arg_size_value (x : I64F64) (positive : 0 < x.bits) : |(x.value - 1) / (x.value + 1)| = argSize x.bits := by
  have bits : (0 : ℚ) < x.bits := by exact_mod_cast positive
  have same : (x.value - 1) / (x.value + 1) = ((x.bits - 2 ^ 64 : ℤ) : ℚ) / ((x.bits + 2 ^ 64 : ℤ) : ℚ) := by
    have total : (x.bits : ℚ) + 2 ^ 64 ≠ 0 := by positivity
    rw [value]
    push_cast
    field_simp
    ring
  have total : (0 : ℚ) < ((x.bits + 2 ^ 64 : ℤ) : ℚ) := by
    push_cast
    positivity
  rw [same, abs_div, abs_of_pos total, argSize]

theorem arg_size_lt_one (bits : ℤ) (positive : 0 < bits) : argSize bits < 1 := by
  have total : (0 : ℚ) < ((bits + 2 ^ 64 : ℤ) : ℚ) := by exact_mod_cast (by omega : 0 < bits + 2 ^ 64)
  rw [argSize, div_lt_one total, abs_lt]
  constructor
  · exact_mod_cast (by omega : -(bits + 2 ^ 64) < bits - 2 ^ 64)
  · exact_mod_cast (by omega : bits - 2 ^ 64 < bits + 2 ^ 64)

theorem arg_size_nonneg (bits : ℤ) (positive : 0 < bits) : 0 ≤ argSize bits := by
  have total : (0 : ℚ) < ((bits + 2 ^ 64 : ℤ) : ℚ) := by exact_mod_cast (by omega : 0 < bits + 2 ^ 64)
  exact div_nonneg (abs_nonneg _) total.le

theorem arg_size_above (a b : ℤ) (low : 2 ^ 64 ≤ a) (le : a ≤ b) : argSize a ≤ argSize b := by
  have totalA : (0 : ℚ) < ((a + 2 ^ 64 : ℤ) : ℚ) := by exact_mod_cast (by omega : 0 < a + 2 ^ 64)
  have totalB : (0 : ℚ) < ((b + 2 ^ 64 : ℤ) : ℚ) := by exact_mod_cast (by omega : 0 < b + 2 ^ 64)
  rw [argSize, argSize, abs_of_nonneg (by exact_mod_cast (by omega : 0 ≤ a - 2 ^ 64)),
    abs_of_nonneg (by exact_mod_cast (by omega : 0 ≤ b - 2 ^ 64)), div_le_div_iff₀ totalA totalB]
  exact_mod_cast (by nlinarith : (a - 2 ^ 64) * (b + 2 ^ 64) ≤ (b - 2 ^ 64) * (a + 2 ^ 64))

theorem arg_size_below (a b : ℤ) (positive : 0 < a) (le : a ≤ b) (high : b ≤ 2 ^ 64) : argSize b ≤ argSize a := by
  have totalA : (0 : ℚ) < ((a + 2 ^ 64 : ℤ) : ℚ) := by exact_mod_cast (by omega : 0 < a + 2 ^ 64)
  have totalB : (0 : ℚ) < ((b + 2 ^ 64 : ℤ) : ℚ) := by exact_mod_cast (by omega : 0 < b + 2 ^ 64)
  rw [argSize, argSize, abs_of_nonpos (by exact_mod_cast (by omega : b - 2 ^ 64 ≤ 0)),
    abs_of_nonpos (by exact_mod_cast (by omega : a - 2 ^ 64 ≤ 0)), div_le_div_iff₀ totalB totalA]
  exact_mod_cast (by nlinarith : -(b - 2 ^ 64) * (a + 2 ^ 64) ≤ -(a - 2 ^ 64) * (b + 2 ^ 64))

theorem within_bound_remainder (x : I64F64) (positive : 0 < x.bits) :
    WithinBound x ↔ remainder (argSize x.bits) 16 ≤ documentedBound := by
  have valued : 0 < x.value := (value_pos x).mpr positive
  have valued' : (0 : ℝ) < x.value := by exact_mod_cast valued
  have size : |((x.value : ℝ) - 1) / (x.value + 1)| = (argSize x.bits : ℝ) := by
    rw [← arg_size_value x positive]
    push_cast
    rfl
  have small : |((x.value : ℝ) - 1) / (x.value + 1)| < 1 := by
    rw [size]
    exact_mod_cast arg_size_lt_one x.bits positive
  have difference : |((2 * atanhSum ((x.value - 1) / (x.value + 1)) 16 : ℚ) : ℝ) - Real.log x.value| =
      remainder (argSize x.bits) 16 := by
    rw [← size, ← remainder_abs _ _ small, remainder, log_argument _ valued', abs_sub_comm]
    push_cast [atanh_sum_cast]
    rfl
  simp only [WithinBound, ln_fixed_exact x.value valued, Option.some.injEq, ↓existsAndEq, true_and, difference]

-- The error moves by less than a billionth of a billionth of itself from one
-- number to the next. Sixty terms tell the two sides of the boundary apart.
theorem remainder_le_bound (bits : ℤ) (positive : 0 < bits)
    (below : 2 * (atanhSum (argSize bits) 60 - atanhSum (argSize bits) 16) +
      2 * (argSize bits ^ 121 / (2 * 60 + 1)) / (1 - argSize bits ^ 2) ≤ documentedBound) :
    remainder (argSize bits) 16 ≤ documentedBound := by
  have bound := remainder_le (argSize bits : ℝ) 16 60 (by exact_mod_cast arg_size_nonneg bits positive)
    (by exact_mod_cast arg_size_lt_one bits positive)
  rw [← atanh_sum_cast, ← atanh_sum_cast] at bound
  refine le_trans bound ?_
  have cast : ((2 * (atanhSum (argSize bits) 60 - atanhSum (argSize bits) 16) +
      2 * (argSize bits ^ 121 / (2 * 60 + 1)) / (1 - argSize bits ^ 2) : ℚ) : ℝ) ≤ (documentedBound : ℝ) := by
    exact_mod_cast below
  push_cast at cast ⊢
  exact cast

theorem bound_lt_remainder (bits : ℤ) (positive : 0 < bits)
    (above : documentedBound < 2 * (atanhSum (argSize bits) 60 - atanhSum (argSize bits) 16)) :
    documentedBound < remainder (argSize bits) 16 := by
  have bound := remainder_ge (argSize bits : ℝ) 16 60 (by exact_mod_cast arg_size_nonneg bits positive)
    (by exact_mod_cast arg_size_lt_one bits positive)
  rw [← atanh_sum_cast, ← atanh_sum_cast] at bound
  refine lt_of_lt_of_le ?_ bound
  have cast : (documentedBound : ℝ) <
      ((2 * (atanhSum (argSize bits) 60 - atanhSum (argSize bits) 16) : ℚ) : ℝ) := by
    exact_mod_cast above
  push_cast at cast ⊢
  exact cast

theorem within_of_size_le (a b : ℤ) (positiveA : 0 < a) (positiveB : 0 < b) (le : argSize a ≤ argSize b)
    (within : remainder (argSize b) 16 ≤ documentedBound) : remainder (argSize a) 16 ≤ documentedBound := by
  refine le_trans (remainder_mono _ _ 16 ?_ ?_ ?_) within
  · exact_mod_cast arg_size_nonneg a positiveA
  · exact_mod_cast le
  · exact_mod_cast arg_size_lt_one b positiveB

theorem within_bound_iff (x : I64F64) (clamp : InClamp x) :
    WithinBound x ↔ 4883514166535779134 ≤ x.bits ∧ x.bits ≤ 69679815664858557143 := by
  obtain ⟨low, high⟩ := (in_clamp_bits x).mp clamp
  rw [within_bound_remainder x (by omega)]
  rcases le_total (2 ^ 64) x.bits with up | down
  · have inside := remainder_le_bound 69679815664858557143 (by norm_num) (by decide +kernel)
    have outside := bound_lt_remainder 69679815664858557144 (by norm_num) (by decide +kernel)
    constructor
    · intro bound
      refine ⟨by omega, ?_⟩
      by_contra beyond
      have order := arg_size_above 69679815664858557144 x.bits (by norm_num) (by omega)
      exact absurd outside (not_lt.mpr (within_of_size_le _ _ (by norm_num) (by omega) order bound))
    · rintro ⟨_, within⟩
      have order := arg_size_above x.bits 69679815664858557143 up within
      exact within_of_size_le _ _ (by omega) (by norm_num) order inside
  · have inside := remainder_le_bound 4883514166535779134 (by norm_num) (by decide +kernel)
    have outside := bound_lt_remainder 4883514166535779133 (by norm_num) (by decide +kernel)
    constructor
    · intro bound
      refine ⟨?_, by omega⟩
      by_contra beyond
      have order := arg_size_below x.bits 4883514166535779133 (by omega) (by omega) (by norm_num)
      exact absurd outside (not_lt.mpr (within_of_size_le _ _ (by norm_num) (by omega) order bound))
    · rintro ⟨within, _⟩
      have order := arg_size_below 4883514166535779134 x.bits (by norm_num) within down
      exact within_of_size_le _ _ (by omega) (by norm_num) order inside

theorem two_within_bound : WithinBound ⟨2 ^ 65, by decide, by decide⟩ :=
  (within_bound_iff ⟨2 ^ 65, by decide, by decide⟩ ((in_clamp_bits _).mpr ⟨by norm_num, by norm_num⟩)).mpr
    ⟨by norm_num, by norm_num⟩

theorem four_beyond_bound : InClamp four ∧ ¬ WithinBound four := by
  refine ⟨four_in_clamp, ?_⟩
  rw [within_bound_remainder four (by decide), not_le]
  exact bound_lt_remainder four.bits (by decide) (by decide +kernel)

end PyGrove.Consensus
