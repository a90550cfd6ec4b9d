import Mathlib.Analysis.SpecialFunctions.Log.Deriv
import Mathlib.Analysis.SpecificLimits.Basic

set_option autoImplicit false

/- The logarithm as twice the series of the inverse hyperbolic tangent,
   ln ((1 + y) / (1 - y)) = 2 * (y + y ^ 3 / 3 + y ^ 5 / 5 + ...), and what is
   lost when the series is cut off. -/
namespace LogSeries

def atanhSum {K : Type} [Field K] (y : K) : ℕ → K
  | 0 => 0
  | n + 1 => atanhSum y n + y ^ (2 * n + 1) / (2 * n + 1)

theorem atanh_sum_cast (y : ℚ) (n : ℕ) : ((atanhSum y n : ℚ) : ℝ) = atanhSum (y : ℝ) n := by
  induction n with
  | zero => simp [atanhSum]
  | succ n ih =>
      rw [atanhSum, atanhSum, ← ih]
      push_cast
      rfl

theorem atanh_sum_neg (y : ℝ) (n : ℕ) : atanhSum (-y) n = -atanhSum y n := by
  induction n with
  | zero => simp [atanhSum]
  | succ n ih =>
      have odd : (-y) ^ (2 * n + 1) = -y ^ (2 * n + 1) := Odd.neg_pow ⟨n, rfl⟩ y
      rw [atanhSum, atanhSum, ih, odd]
      ring

noncomputable def remainder (y : ℝ) (n : ℕ) : ℝ := Real.log (1 + y) - Real.log (1 - y) - 2 * atanhSum y n

theorem remainder_neg (y : ℝ) (n : ℕ) : remainder (-y) n = -remainder y n := by
  rw [remainder, remainder, atanh_sum_neg, sub_neg_eq_add, ← sub_eq_add_neg]
  ring

theorem remainder_split (y : ℝ) (n m : ℕ) : remainder y n = 2 * (atanhSum y m - atanhSum y n) + remainder y m := by
  rw [remainder, remainder]
  ring

theorem atanh_sum_eq (y : ℝ) (n : ℕ) :
    2 * atanhSum y n = ∑ k ∈ Finset.range n, 2 * (1 / (2 * (k : ℝ) + 1)) * y ^ (2 * k + 1) := by
  induction n with
  | zero => simp [atanhSum]
  | succ n ih =>
      rw [atanhSum, mul_add, ih, Finset.sum_range_succ]
      ring

theorem remainder_has_sum (y : ℝ) (n : ℕ) (small : |y| < 1) :
    HasSum (fun k : ℕ => 2 * (1 / (2 * ((k + n : ℕ) : ℝ) + 1)) * y ^ (2 * (k + n) + 1)) (remainder y n) := by
  have whole := Real.hasSum_log_sub_log_of_abs_lt_one small
  rw [remainder, atanh_sum_eq]
  exact (hasSum_nat_add_iff' n).mpr whole

section
variable (y z : ℝ) (n m : ℕ) (positive : 0 ≤ y)
include positive

theorem remainder_mono (le : y ≤ z) (small : z < 1) : remainder y n ≤ remainder z n := by
  have sumY := remainder_has_sum y n (abs_lt.mpr ⟨by linarith, by linarith⟩)
  have sumZ := remainder_has_sum z n (abs_lt.mpr ⟨by linarith, by linarith⟩)
  refine hasSum_le ?_ sumY sumZ
  intro k
  gcongr

theorem remainder_nonneg (small : y < 1) : 0 ≤ remainder y n := by
  refine (remainder_has_sum y n (abs_lt.mpr ⟨by linarith, small⟩)).nonneg ?_
  intro k
  positivity

omit positive in
theorem remainder_abs (small : |y| < 1) : |remainder y n| = remainder |y| n := by
  rcases le_total 0 y with up | down
  · rw [abs_of_nonneg up] at small ⊢
    exact abs_of_nonneg (remainder_nonneg y n up small)
  · rw [abs_of_nonpos down] at small ⊢
    have sign := remainder_nonneg (-y) n (by linarith) small
    rw [← abs_of_nonneg sign, remainder_neg, abs_neg]

theorem remainder_ge (small : y < 1) : 2 * (atanhSum y m - atanhSum y n) ≤ remainder y n := by
  rw [remainder_split y n m]
  linarith [remainder_nonneg y m positive small]

theorem remainder_le_geometric (small : y < 1) : remainder y n ≤ 2 * (y ^ (2 * n + 1) / (2 * n + 1)) / (1 - y ^ 2) := by
  have square : y ^ 2 < 1 := by nlinarith
  have geometric := (hasSum_geometric_of_lt_one (sq_nonneg y) square).mul_left (2 * (y ^ (2 * n + 1) / (2 * n + 1)))
  rw [← div_eq_mul_inv] at geometric
  refine hasSum_le ?_ (remainder_has_sum y n (abs_lt.mpr ⟨by linarith, small⟩)) geometric
  intro k
  have power : y ^ (2 * (k + n) + 1) = y ^ (2 * n + 1) * (y ^ 2) ^ k := by ring
  have denominator : 1 / (2 * ((k + n : ℕ) : ℝ) + 1) ≤ 1 / (2 * (n : ℝ) + 1) := by
    push_cast
    gcongr
    linarith [Nat.cast_nonneg (α := ℝ) k]
  rw [power]
  calc 2 * (1 / (2 * ((k + n : ℕ) : ℝ) + 1)) * (y ^ (2 * n + 1) * (y ^ 2) ^ k)
      ≤ 2 * (1 / (2 * (n : ℝ) + 1)) * (y ^ (2 * n + 1) * (y ^ 2) ^ k) := by gcongr
    _ = 2 * (y ^ (2 * n + 1) / (2 * n + 1)) * (y ^ 2) ^ k := by ring

theorem remainder_le (small : y < 1) :
    remainder y n ≤ 2 * (atanhSum y m - atanhSum y n) + 2 * (y ^ (2 * m + 1) / (2 * m + 1)) / (1 - y ^ 2) := by
  rw [remainder_split y n m]
  linarith [remainder_le_geometric y m positive small]

end

end LogSeries
