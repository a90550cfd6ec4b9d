import Mathlib.Algebra.Order.Field.Basic
import Mathlib.Data.Rat.Floor
import Mathlib.Tactic.FieldSimp
import Mathlib.Tactic.Linarith
import Mathlib.Tactic.Ring

set_option autoImplicit false

/- Binary fixed-point numbers of a bounded width. A number is an integer count
   of units 2 ^ -frac; sums are exact, products and quotients are rounded to a
   unit, and an operation whose result does not fit is refused. -/
namespace FixedPoint

class Arith (α : Type) where
  fromNum : ℤ → Option α
  add : α → α → Option α
  sub : α → α → Option α
  mul : α → α → Option α
  div : α → α → Option α
  neg : α → Option α

instance {K : Type} [Field K] [DecidableEq K] : Arith K where
  fromNum := fun n => some n
  add := fun a b => some (a + b)
  sub := fun a b => some (a - b)
  mul := fun a b => some (a * b)
  div := fun a b => if b = 0 then none else some (a / b)
  neg := fun a => some (-a)

section
variable {K : Type} [Field K] [DecidableEq K] (a b : K)

@[simp] theorem exact_from_num (n : ℤ) : Arith.fromNum n = some (n : K) := rfl

@[simp] theorem exact_add : Arith.add a b = some (a + b) := rfl

@[simp] theorem exact_sub : Arith.sub a b = some (a - b) := rfl

@[simp] theorem exact_mul : Arith.mul a b = some (a * b) := rfl

@[simp] theorem exact_neg : Arith.neg a = some (-a) := rfl

theorem exact_div (nonzero : b ≠ 0) : Arith.div a b = some (a / b) := if_neg nonzero

end

structure Rounding where
  round : ℚ → ℤ
  mono : ∀ {a b : ℚ}, a ≤ b → round a ≤ round b
  round_int : ∀ n : ℤ, round n = n

namespace Rounding

def down : Rounding := ⟨Int.floor, fun le => Int.floor_mono le, Int.floor_intCast⟩

def towardZero : Rounding where
  round := fun q => if 0 ≤ q then ⌊q⌋ else ⌈q⌉
  mono := by
    intro a b le
    split
    · rename_i positive
      rw [if_pos (le_trans positive le)]
      exact Int.floor_mono le
    · rename_i negative
      split
      · rename_i positive
        exact le_trans (Int.ceil_le.mpr (by push_cast; linarith)) (Int.floor_nonneg.mpr positive)
      · exact Int.ceil_mono le
  round_int := by
    intro n
    split
    · exact Int.floor_intCast n
    · exact Int.ceil_intCast n

variable (r : Rounding) (q : ℚ) (n : ℤ)

theorem round_le (le : q ≤ n) : r.round q ≤ n := by
  have rounded := r.mono le
  rwa [r.round_int] at rounded

theorem le_round (le : (n : ℚ) ≤ q) : n ≤ r.round q := by
  have rounded := r.mono le
  rwa [r.round_int] at rounded

theorem round_nonneg (positive : 0 ≤ q) : 0 ≤ r.round q := r.le_round q 0 (by exact_mod_cast positive)

theorem round_nonpos (negative : q ≤ 0) : r.round q ≤ 0 := r.round_le q 0 (by exact_mod_cast negative)

section
variable (a a' c c' u u' : ℤ)

theorem scaled_nonneg (positive : 0 ≤ a) (factor : 0 ≤ c) (shrinks : c ≤ u) (unit : 0 < u) :
    0 ≤ r.round (a * c / u) ∧ r.round (a * c / u) ≤ a := by
  have unit' : (0 : ℚ) < u := by exact_mod_cast unit
  constructor
  · exact r.round_nonneg _ (div_nonneg (by exact_mod_cast mul_nonneg positive factor) unit'.le)
  · refine r.round_le _ _ ?_
    rw [div_le_iff₀ unit']
    exact_mod_cast mul_le_mul_of_nonneg_left shrinks positive

theorem scaled_nonpos (negative : a ≤ 0) (factor : 0 ≤ c) (shrinks : c ≤ u) (unit : 0 < u) :
    a ≤ r.round (a * c / u) ∧ r.round (a * c / u) ≤ 0 := by
  have unit' : (0 : ℚ) < u := by exact_mod_cast unit
  constructor
  · refine r.le_round _ _ ?_
    rw [le_div_iff₀ unit']
    exact_mod_cast mul_le_mul_of_nonpos_left shrinks negative
  · refine r.round_nonpos _ (div_nonpos_of_nonpos_of_nonneg ?_ unit'.le)
    exact_mod_cast mul_nonpos_of_nonpos_of_nonneg negative factor

theorem scaled_mono (unit : 0 < u) (unit' : 0 < u') (le : a * c * u' ≤ a' * c' * u) :
    r.round (a * c / u) ≤ r.round (a' * c' / u') := by
  have positive : (0 : ℚ) < u := by exact_mod_cast unit
  have positive' : (0 : ℚ) < u' := by exact_mod_cast unit'
  refine r.mono ?_
  rw [div_le_div_iff₀ positive positive']
  exact_mod_cast le

end

end Rounding

class RoundingModes where
  mul : Rounding
  div : Rounding

structure Fixed (width frac : ℕ) where
  bits : ℤ
  low : -2 ^ (width - 1) ≤ bits
  high : bits < 2 ^ (width - 1)

namespace Fixed

variable {width frac : ℕ}

section
variable [RoundingModes]

def mulBits (frac : ℕ) (a b : ℤ) : ℤ := RoundingModes.mul.round (a * b / (2 ^ frac : ℤ))

def divBits (frac : ℕ) (a b : ℤ) : ℤ := RoundingModes.div.round (a * (2 ^ frac : ℤ) / b)

variable (a a' b b' : ℤ) (frac : ℕ)

theorem mul_bits_nonneg (positive : 0 ≤ a) (factor : 0 ≤ b) (shrinks : b ≤ 2 ^ frac) :
    0 ≤ mulBits frac a b ∧ mulBits frac a b ≤ a :=
  RoundingModes.mul.scaled_nonneg a b _ positive factor shrinks (by positivity)

theorem mul_bits_nonpos (negative : a ≤ 0) (factor : 0 ≤ b) (shrinks : b ≤ 2 ^ frac) :
    a ≤ mulBits frac a b ∧ mulBits frac a b ≤ 0 :=
  RoundingModes.mul.scaled_nonpos a b _ negative factor shrinks (by positivity)

theorem mul_bits_mono (le : a * b ≤ a' * b') : mulBits frac a b ≤ mulBits frac a' b' :=
  RoundingModes.mul.scaled_mono a a' b b' _ _ (by positivity) (by positivity)
    (mul_le_mul_of_nonneg_right le (by positivity))

theorem mul_bits_comm : mulBits frac a b = mulBits frac b a := by rw [mulBits, mulBits, mul_comm (a : ℚ)]

theorem mul_bits_whole (n : ℤ) : mulBits frac a (n * 2 ^ frac) = a * n := by
  have unit : (2 ^ frac : ℚ) ≠ 0 := by positivity
  have exact : (a : ℚ) * ((n * 2 ^ frac : ℤ) : ℚ) / ((2 ^ frac : ℤ) : ℚ) = ((a * n : ℤ) : ℚ) := by
    push_cast
    field_simp
  rw [mulBits, exact, RoundingModes.mul.round_int]

theorem div_bits_nonneg (positive : 0 ≤ a) (shrinks : 2 ^ frac ≤ b) : 0 ≤ divBits frac a b ∧ divBits frac a b ≤ a :=
  RoundingModes.div.scaled_nonneg a _ b positive (by positivity) shrinks (lt_of_lt_of_le (by positivity) shrinks)

theorem div_bits_pos (unit : 0 < b) (large : b ≤ a * 2 ^ frac) : 0 < divBits frac a b := by
  have unit' : (0 : ℚ) < b := by exact_mod_cast unit
  refine Int.lt_of_add_one_le (RoundingModes.div.le_round _ _ ?_)
  rw [le_div_iff₀ unit']
  exact_mod_cast (by rwa [zero_add, one_mul] : (0 + 1) * b ≤ a * 2 ^ frac)

theorem div_bits_nonpos (negative : a ≤ 0) (shrinks : 2 ^ frac ≤ b) : a ≤ divBits frac a b ∧ divBits frac a b ≤ 0 :=
  RoundingModes.div.scaled_nonpos a _ b negative (by positivity) shrinks (lt_of_lt_of_le (by positivity) shrinks)

theorem div_bits_whole (n : ℤ) (nonzero : b ≠ 0) : divBits frac (n * b) b = n * 2 ^ frac := by
  have unit : (b : ℚ) ≠ 0 := by exact_mod_cast nonzero
  have exact : ((n * b : ℤ) : ℚ) * ((2 ^ frac : ℤ) : ℚ) / b = ((n * 2 ^ frac : ℤ) : ℚ) := by
    push_cast
    field_simp
  rw [divBits, exact, RoundingModes.div.round_int]

theorem div_bits_mono (unit : 0 < b) (unit' : 0 < b') (le : a * b' ≤ a' * b) : divBits frac a b ≤ divBits frac a' b' := by
  refine RoundingModes.div.scaled_mono a a' _ _ b b' unit unit' ?_
  rw [mul_right_comm, mul_right_comm a']
  exact mul_le_mul_of_nonneg_right le (by positivity)

end

def Fits (width : ℕ) (bits : ℤ) : Prop := -2 ^ (width - 1) ≤ bits ∧ bits < 2 ^ (width - 1)

instance (width : ℕ) (bits : ℤ) : Decidable (Fits width bits) :=
  inferInstanceAs (Decidable (_ ∧ _))

def ofBits (bits : ℤ) : Option (Fixed width frac) :=
  if fits : Fits width bits then some ⟨bits, fits.1, fits.2⟩ else none

theorem bits_inj (a b : Fixed width frac) (same : a.bits = b.bits) : a = b := by
  cases a
  cases b
  cases same
  rfl

instance : LinearOrder (Fixed width frac) := LinearOrder.lift' Fixed.bits bits_inj

theorem le_bits (a b : Fixed width frac) : a ≤ b ↔ a.bits ≤ b.bits := Iff.rfl

theorem lt_bits (a b : Fixed width frac) : a < b ↔ a.bits < b.bits := Iff.rfl

def value (a : Fixed width frac) : ℚ := a.bits / 2 ^ frac

theorem le_value (a : Fixed width frac) (q : ℚ) : q ≤ a.value ↔ q * 2 ^ frac ≤ a.bits := by
  rw [value, le_div_iff₀ (by positivity)]

theorem value_le (a : Fixed width frac) (q : ℚ) : a.value ≤ q ↔ (a.bits : ℚ) ≤ q * 2 ^ frac := by
  rw [value, div_le_iff₀ (by positivity)]

theorem value_eq (a : Fixed width frac) (q : ℚ) : a.value = q ↔ (a.bits : ℚ) = q * 2 ^ frac := by
  rw [value, div_eq_iff (by positivity)]

instance [RoundingModes] : Arith (Fixed width frac) where
  fromNum := fun n => ofBits (n * 2 ^ frac)
  add := fun a b => ofBits (a.bits + b.bits)
  sub := fun a b => ofBits (a.bits - b.bits)
  mul := fun a b => ofBits (mulBits frac a.bits b.bits)
  div := fun a b => if b.bits = 0 then none else ofBits (divBits frac a.bits b.bits)
  neg := fun a => ofBits (-a.bits)

theorem of_bits_fits (bits : ℤ) (fits : Fits width bits) :
    ∃ c : Fixed width frac, ofBits bits = some c ∧ c.bits = bits :=
  ⟨⟨bits, fits.1, fits.2⟩, dif_pos fits, rfl⟩

theorem of_bits_some (bits : ℤ) (c : Fixed width frac) (made : ofBits bits = some c) : c.bits = bits := by
  simp only [ofBits] at made
  split at made
  · cases made
    rfl
  · cases made

section
variable [RoundingModes] (a b : Fixed width frac)

theorem from_num_fits (n : ℤ) (fits : Fits width (n * 2 ^ frac)) :
    ∃ c : Fixed width frac, Arith.fromNum n = some c ∧ c.bits = n * 2 ^ frac := of_bits_fits _ fits

theorem add_fits (fits : Fits width (a.bits + b.bits)) : ∃ c, Arith.add a b = some c ∧ c.bits = a.bits + b.bits :=
  of_bits_fits _ fits

theorem sub_fits (fits : Fits width (a.bits - b.bits)) : ∃ c, Arith.sub a b = some c ∧ c.bits = a.bits - b.bits :=
  of_bits_fits _ fits

theorem neg_fits (fits : Fits width (-a.bits)) : ∃ c, Arith.neg a = some c ∧ c.bits = -a.bits := of_bits_fits _ fits

theorem mul_fits (fits : Fits width (mulBits frac a.bits b.bits)) :
    ∃ c, Arith.mul a b = some c ∧ c.bits = mulBits frac a.bits b.bits := of_bits_fits _ fits

theorem div_fits (nonzero : b.bits ≠ 0) (fits : Fits width (divBits frac a.bits b.bits)) :
    ∃ c, Arith.div a b = some c ∧ c.bits = divBits frac a.bits b.bits := by
  have made : Arith.div a b = ofBits (divBits frac a.bits b.bits) := if_neg nonzero
  rw [made]
  exact of_bits_fits _ fits

end

end Fixed

end FixedPoint
