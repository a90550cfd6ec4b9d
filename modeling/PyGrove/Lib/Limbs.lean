import PyGrove.Lib.Words
import PyGrove.Lib.Steps

set_option autoImplicit false

/- Numbers as lists of machine words, the high word first. Multiplication by a
   word walks from the low end with a carry, division by a word from the high
   end with a remainder; both work in an accumulator of twice the width. -/
namespace Limbs

open Words Steps

variable {w d : ℕ}

def value : List (BitVec w) → ℕ
  | [] => 0
  | limb :: tail => limb.toNat * (2 ^ w) ^ tail.length + value tail

theorem value_append (high low : List (BitVec w)) :
    value (high ++ low) = value high * (2 ^ w) ^ low.length + value low := by
  induction high with
  | nil => rw [List.nil_append, value, Nat.zero_mul, Nat.zero_add]
  | cons limb tail ih =>
      rw [List.cons_append, value, value, ih, List.length_append, Nat.pow_add, Nat.add_mul, Nat.mul_assoc, Nat.add_assoc]

theorem value_snoc (high : List (BitVec w)) (limb : BitVec w) : value (high ++ [limb]) = value high * 2 ^ w + limb.toNat := by
  rw [value_append, List.length_singleton, Nat.pow_one, value, value, List.length_nil, Nat.pow_zero, Nat.mul_one, Nat.add_zero]

theorem value_lt (limbs : List (BitVec w)) : value limbs < (2 ^ w) ^ limbs.length := by
  induction limbs with
  | nil => exact Nat.one_pos
  | cons limb tail ih =>
      have head : (limb.toNat + 1) * (2 ^ w) ^ tail.length ≤ 2 ^ w * (2 ^ w) ^ tail.length := Nat.mul_le_mul_right _ limb.isLt
      rw [Nat.add_mul, Nat.one_mul] at head
      rw [value, List.length_cons, Nat.pow_succ']
      omega

theorem length_limb_bytes (n : ℕ) (limbs : List (BitVec w)) :
    (limbs.flatMap fun limb => beBytes n limb.toNat).length = n * limbs.length := by
  simp [List.length_flatMap, Nat.mul_comm]

theorem of_be_bytes_limbs (n : ℕ) (width : w = 8 * n) (limbs : List (BitVec w)) :
    ofBeBytes (limbs.flatMap fun limb => beBytes n limb.toNat) = value limbs := by
  have base : 2 ^ w = 256 ^ n := by rw [width, Nat.pow_mul]
  induction limbs with
  | nil => rfl
  | cons limb tail ih =>
      rw [List.flatMap_cons, of_be_bytes_append, ih, of_be_bytes_be_bytes n _ (word_lt_bytes limb width.le),
        length_limb_bytes, value, base, Nat.pow_mul]

def mulStep (b : BitVec w) (carry : BitVec d) (limb : BitVec w) : BitVec d × BitVec w :=
  let p := limb.setWidth d * b.setWidth d + carry
  (p >>> w, p.setWidth w)

def MulFits (b : BitVec w) (carry : BitVec d) (limb : BitVec w) : Prop :=
  limb.toNat * b.toNat < 2 ^ d ∧ limb.toNat * b.toNat + carry.toNat < 2 ^ d

def divStep (divisor : BitVec w) (rem : BitVec d) (limb : BitVec w) : BitVec d × BitVec w :=
  let acc := rem <<< w ||| limb.setWidth d
  (acc % divisor.setWidth d, (acc / divisor.setWidth d).setWidth w)

def DivFits (divisor : BitVec w) (rem : BitVec d) (limb : BitVec w) : Prop :=
  rem.toNat * 2 ^ w + limb.toNat < 2 ^ d ∧ (rem.toNat * 2 ^ w + limb.toNat) / divisor.toNat < 2 ^ w

section
variable (wide : 2 * w ≤ d)

include wide in
theorem square_le : 2 ^ w * 2 ^ w ≤ 2 ^ d := by
  rw [← Nat.pow_add]
  exact Nat.pow_le_pow_right (by decide) (by omega)

include wide in
theorem to_nat_widen (limb : BitVec w) : (limb.setWidth d).toNat = limb.toNat := by
  rw [BitVec.toNat_setWidth, Nat.mod_eq_of_lt (Nat.lt_of_lt_of_le limb.isLt (Nat.pow_le_pow_right (by decide) (by omega)))]

theorem row_lt (b limb : BitVec w) (carry : ℕ) (small : carry < 2 ^ w) : limb.toNat * b.toNat + carry < 2 ^ w * 2 ^ w := by
  have product : (limb.toNat + 1) * b.toNat ≤ 2 ^ w * b.toNat := Nat.mul_le_mul_right _ limb.isLt
  have row : 2 ^ w * (b.toNat + 1) ≤ 2 ^ w * 2 ^ w := Nat.mul_le_mul_left _ b.isLt
  rw [Nat.add_mul, Nat.one_mul] at product
  rw [Nat.mul_add, Nat.mul_one] at row
  omega

include wide in
theorem mul_fits (b : BitVec w) (carry : BitVec d) (limb : BitVec w) (small : carry.toNat < 2 ^ w) : MulFits b carry limb := by
  have square := square_le wide
  have row := row_lt b limb carry.toNat small
  refine ⟨?_, ?_⟩ <;> omega

include wide in
theorem mul_step_value (b : BitVec w) (carry : BitVec d) (limb : BitVec w) (small : carry.toNat < 2 ^ w) :
    (mulStep b carry limb).1.toNat * 2 ^ w + (mulStep b carry limb).2.toNat = limb.toNat * b.toNat + carry.toNat ∧
      (mulStep b carry limb).1.toNat < 2 ^ w := by
  have product : (limb.setWidth d * b.setWidth d + carry).toNat = limb.toNat * b.toNat + carry.toNat := by
    obtain ⟨fits, sum⟩ := mul_fits wide b carry limb small
    rw [BitVec.toNat_add, BitVec.toNat_mul, to_nat_widen wide, to_nat_widen wide, Nat.mod_eq_of_lt fits, Nat.mod_eq_of_lt sum]
  have high : (mulStep b carry limb).1.toNat = (limb.toNat * b.toNat + carry.toNat) / 2 ^ w := by
    rw [mulStep, BitVec.toNat_ushiftRight, product, Nat.shiftRight_eq_div_pow]
  have low : (mulStep b carry limb).2.toNat = (limb.toNat * b.toNat + carry.toNat) % 2 ^ w := by
    rw [mulStep, BitVec.toNat_setWidth, product]
  refine ⟨?_, ?_⟩
  · rw [high, low]
    exact Nat.div_add_mod' _ _
  · rw [high, Nat.div_lt_iff_lt_mul (Nat.two_pow_pos w)]
    exact row_lt b limb carry.toNat small

include wide in
theorem mul_run (b : BitVec w) (carry : BitVec d) (limbs : List (BitVec w)) (small : carry.toNat < 2 ^ w) :
    (runCalls (mulStep b) carry limbs).toNat * (2 ^ w) ^ limbs.length + value (replies (mulStep b) carry limbs).reverse =
        value limbs.reverse * b.toNat + carry.toNat ∧
      (runCalls (mulStep b) carry limbs).toNat < 2 ^ w ∧ Along (mulStep b) (MulFits b) carry limbs := by
  induction limbs generalizing carry with
  | nil =>
      refine ⟨?_, small, trivial⟩
      simp [runCalls, replies, value]
  | cons limb tail ih =>
      obtain ⟨split, next⟩ := mul_step_value wide b carry limb small
      obtain ⟨rest, final, fits⟩ := ih (mulStep b carry limb).1 next
      refine ⟨?_, final, mul_fits wide b carry limb small, fits⟩
      rw [replies, List.reverse_cons, List.reverse_cons, value_snoc, value_snoc, List.length_cons, Nat.pow_succ]
      calc (runCalls (mulStep b) carry (limb :: tail)).toNat * ((2 ^ w) ^ tail.length * 2 ^ w) +
            (value (replies (mulStep b) (mulStep b carry limb).1 tail).reverse * 2 ^ w + (mulStep b carry limb).2.toNat)
          = ((runCalls (mulStep b) (mulStep b carry limb).1 tail).toNat * (2 ^ w) ^ tail.length +
              value (replies (mulStep b) (mulStep b carry limb).1 tail).reverse) * 2 ^ w + (mulStep b carry limb).2.toNat := by
            rw [show runCalls (mulStep b) carry (limb :: tail) = runCalls (mulStep b) (mulStep b carry limb).1 tail from rfl]
            ring
        _ = (value tail.reverse * b.toNat + (mulStep b carry limb).1.toNat) * 2 ^ w + (mulStep b carry limb).2.toNat := by
            rw [rest]
        _ = value tail.reverse * b.toNat * 2 ^ w + ((mulStep b carry limb).1.toNat * 2 ^ w + (mulStep b carry limb).2.toNat) := by
            ring
        _ = value tail.reverse * b.toNat * 2 ^ w + (limb.toNat * b.toNat + carry.toNat) := by rw [split]
        _ = (value tail.reverse * 2 ^ w + limb.toNat) * b.toNat + carry.toNat := by ring

include wide in
theorem div_step_value (divisor : BitVec w) (rem : BitVec d) (limb : BitVec w) (small : rem.toNat < divisor.toNat) :
    (divStep divisor rem limb).2.toNat * divisor.toNat + (divStep divisor rem limb).1.toNat =
        rem.toNat * 2 ^ w + limb.toNat ∧
      (divStep divisor rem limb).1.toNat < divisor.toNat ∧ DivFits divisor rem limb := by
  have bound := limb.isLt
  have positive : 0 < divisor.toNat := Nat.lt_of_le_of_lt (Nat.zero_le _) small
  have shifted : (rem.toNat + 1) * 2 ^ w ≤ divisor.toNat * 2 ^ w := Nat.mul_le_mul_right _ small
  rw [Nat.add_mul, Nat.one_mul] at shifted
  have digit : (rem.toNat * 2 ^ w + limb.toNat) / divisor.toNat < 2 ^ w := by
    rw [Nat.div_lt_iff_lt_mul positive, Nat.mul_comm (2 ^ w)]
    omega
  have room : rem.toNat * 2 ^ w + limb.toNat < 2 ^ d := by
    have square := square_le wide
    have row := Nat.mul_le_mul_right (2 ^ w) (Nat.le_of_lt divisor.isLt)
    omega
  have acc : (rem <<< w ||| limb.setWidth d).toNat = rem.toNat * 2 ^ w + limb.toNat := by
    rw [BitVec.toNat_or, BitVec.toNat_shiftLeft, to_nat_widen wide, Nat.shiftLeft_eq, Nat.mod_eq_of_lt (by omega), Nat.mul_comm,
      Nat.two_pow_add_eq_or_of_lt bound]
  have quotient : (divStep divisor rem limb).2.toNat = (rem.toNat * 2 ^ w + limb.toNat) / divisor.toNat := by
    rw [divStep, BitVec.toNat_setWidth, BitVec.toNat_udiv, acc, to_nat_widen wide, Nat.mod_eq_of_lt digit]
  have rest : (divStep divisor rem limb).1.toNat = (rem.toNat * 2 ^ w + limb.toNat) % divisor.toNat := by
    rw [divStep, BitVec.toNat_umod, acc, to_nat_widen wide]
  refine ⟨?_, ?_, room, digit⟩
  · rw [quotient, rest]
    exact Nat.div_add_mod' _ _
  · rw [rest]
    exact Nat.mod_lt _ positive

include wide in
theorem div_run (divisor : BitVec w) (rem : BitVec d) (limbs : List (BitVec w)) (small : rem.toNat < divisor.toNat) :
    value (replies (divStep divisor) rem limbs) * divisor.toNat + (runCalls (divStep divisor) rem limbs).toNat =
        rem.toNat * (2 ^ w) ^ limbs.length + value limbs ∧
      (runCalls (divStep divisor) rem limbs).toNat < divisor.toNat ∧ Along (divStep divisor) (DivFits divisor) rem limbs := by
  induction limbs generalizing rem with
  | nil =>
      refine ⟨?_, small, trivial⟩
      simp [runCalls, replies, value]
  | cons limb tail ih =>
      obtain ⟨split, next, fits⟩ := div_step_value wide divisor rem limb small
      obtain ⟨rest, final, along⟩ := ih (divStep divisor rem limb).1 next
      refine ⟨?_, final, fits, along⟩
      rw [replies, value, value, length_replies, List.length_cons, Nat.pow_succ]
      calc ((divStep divisor rem limb).2.toNat * (2 ^ w) ^ tail.length +
            value (replies (divStep divisor) (divStep divisor rem limb).1 tail)) * divisor.toNat +
            (runCalls (divStep divisor) rem (limb :: tail)).toNat
          = (divStep divisor rem limb).2.toNat * divisor.toNat * (2 ^ w) ^ tail.length +
              (value (replies (divStep divisor) (divStep divisor rem limb).1 tail) * divisor.toNat +
                (runCalls (divStep divisor) (divStep divisor rem limb).1 tail).toNat) := by
            rw [show runCalls (divStep divisor) rem (limb :: tail) =
              runCalls (divStep divisor) (divStep divisor rem limb).1 tail from rfl]
            ring
        _ = ((divStep divisor rem limb).2.toNat * divisor.toNat + (divStep divisor rem limb).1.toNat) * (2 ^ w) ^ tail.length +
              value tail := by
            rw [rest]
            ring
        _ = (rem.toNat * 2 ^ w + limb.toNat) * (2 ^ w) ^ tail.length + value tail := by rw [split]
        _ = rem.toNat * ((2 ^ w) ^ tail.length * 2 ^ w) + (limb.toNat * (2 ^ w) ^ tail.length + value tail) := by ring

end

end Limbs
