import PyGrove.Lib.Limbs

set_option autoImplicit false

namespace PyGrove.Consensus

open Words Steps

def clampRetarget (actualTimespanMs expectedTimespanMs : U64) : U64 × U64 :=
  let min := expectedTimespanMs / 4
  let max := saturatingMul expectedTimespanMs 4
  (wordClamp actualTimespanMs min max, expectedTimespanMs)

def limbAt (a : Bytes 32) (start : Nat) : U64 := BitVec.ofNat 64 (ofBeBytes ((a.toList.drop start).take 8))

def targetLimbs (a : Bytes 32) : List U64 := [limbAt a 0, limbAt a 8, limbAt a 16, limbAt a 24]

def mulU256U64 (a : Bytes 32) (b : U64) : List.Vector U64 5 :=
  let low := (targetLimbs a).reverse
  ⟨(runCalls (Limbs.mulStep b) (0 : U128) low).setWidth 64 :: (replies (Limbs.mulStep b) (0 : U128) low).reverse, by
    simp [low, targetLimbs]⟩

def divU320U64 (num : List.Vector U64 5) (d : U64) : List.Vector U64 5 × U64 :=
  (⟨replies (Limbs.divStep d) (0 : U128) num.toList, by simp⟩,
    (runCalls (Limbs.divStep d) (0 : U128) num.toList).setWidth 64)

def quotBytes (quot : List.Vector U64 5) : Bytes 32 :=
  ⟨quot.tail.toList.flatMap fun limb => beBytes 8 limb.toNat, by rw [Limbs.length_limb_bytes, List.Vector.toList_length]⟩

def bitcoinRetarget (oldTarget : Bytes 32) (actualMs expectedMs : U64) : Bytes 32 :=
  let (actual, expected) := clampRetarget actualMs expectedMs
  if expected = 0 then oldTarget
  else
    let prod := mulU256U64 oldTarget actual
    let (quot, _) := divU320U64 prod expected
    if quot.head ≠ 0 then List.Vector.replicate 32 0xFF else quotBytes quot

theorem value_target_limbs (a : Bytes 32) : Limbs.value (targetLimbs a) = ofBeBytes a.toList := by
  have length := a.toList_length
  have limb : ∀ start, start + 8 ≤ 32 → (limbAt a start).toNat = ofBeBytes a.toList / 256 ^ (24 - start) % 2 ^ 64 := by
    intro start inside
    rw [limbAt, BitVec.toNat_ofNat, of_be_bytes_take, of_be_bytes_drop, List.length_drop, length,
      show 32 - start - 8 = 24 - start by omega]
    have scale : 256 ^ (32 - start) = 256 ^ (24 - start) * 2 ^ 64 := by
      rw [show 32 - start = 24 - start + 8 by omega, Nat.pow_add]
      rfl
    rw [scale, Nat.mod_mul_right_div_self, Nat.mod_mod]
  have bound := of_be_bytes_lt a.toList
  rw [length] at bound
  simp only [targetLimbs, Limbs.value, List.length_cons, List.length_nil]
  rw [limb 0 (by decide), limb 8 (by decide), limb 16 (by decide), limb 24 (by decide)]
  omega

def clampedMs (actualMs expectedMs : U64) : ℕ :=
  max (expectedMs.toNat / 4) (min actualMs.toNat (min (4 * expectedMs.toNat) (2 ^ 64 - 1)))

theorem to_nat_clamp_retarget (actualMs expectedMs : U64) :
    (clampRetarget actualMs expectedMs).1.toNat = clampedMs actualMs expectedMs := by
  have lower : (expectedMs / 4).toNat = expectedMs.toNat / 4 := BitVec.toNat_udiv
  have upper : (saturatingMul expectedMs 4).toNat = min (4 * expectedMs.toNat) (2 ^ 64 - 1) := by
    rw [to_nat_saturating_mul, show (4 : U64).toNat = 4 from rfl, Nat.mul_comm]
  have bound := expectedMs.isLt
  simp only [clampRetarget]
  rw [to_nat_word_clamp _ _ _ (by rw [lower, upper]; omega), lower, upper, clampedMs]

theorem mul_u256_u64_value (a : Bytes 32) (b : U64) :
    Limbs.value (mulU256U64 a b).toList = ofBeBytes a.toList * b.toNat ∧
      (runCalls (Limbs.mulStep b) (0 : U128) (targetLimbs a).reverse).toNat < 2 ^ 64 ∧
      Along (Limbs.mulStep b) (Limbs.MulFits b) (0 : U128) (targetLimbs a).reverse := by
  obtain ⟨product, carried, fits⟩ := Limbs.mul_run (by decide) b (0 : U128) (targetLimbs a).reverse (by decide)
  refine ⟨?_, carried, fits⟩
  rw [List.reverse_reverse, value_target_limbs, show (0 : U128).toNat = 0 from rfl, Nat.add_zero] at product
  rw [← product]
  simp only [mulU256U64]
  rw [List.Vector.toList_mk, Limbs.value, List.length_reverse, length_replies, BitVec.toNat_setWidth, Nat.mod_eq_of_lt carried]

theorem div_u320_u64_value (num : List.Vector U64 5) (d : U64) (positive : 0 < d.toNat) :
    Limbs.value (divU320U64 num d).1.toList = Limbs.value num.toList / d.toNat ∧
      (runCalls (Limbs.divStep d) (0 : U128) num.toList).toNat < d.toNat ∧
      Along (Limbs.divStep d) (Limbs.DivFits d) (0 : U128) num.toList := by
  obtain ⟨quotient, rem, fits⟩ := Limbs.div_run (by decide) d (0 : U128) num.toList positive
  refine ⟨?_, rem, fits⟩
  rw [show (0 : U128).toNat = 0 from rfl, Nat.zero_mul, Nat.zero_add] at quotient
  rw [← quotient, Nat.mul_comm, Nat.mul_add_div positive, Nat.div_eq_of_lt rem, Nat.add_zero]
  rfl

structure RetargetFits (oldTarget : Bytes 32) (actual expected : U64) : Prop where
  products : Along (Limbs.mulStep actual) (Limbs.MulFits actual) (0 : U128) (targetLimbs oldTarget).reverse
  lastCarry : (runCalls (Limbs.mulStep actual) (0 : U128) (targetLimbs oldTarget).reverse).toNat < 2 ^ 64
  remainders : Along (Limbs.divStep expected) (Limbs.DivFits expected) (0 : U128) (mulU256U64 oldTarget actual).toList
  lastRemainder : (runCalls (Limbs.divStep expected) (0 : U128) (mulU256U64 oldTarget actual).toList).toNat < 2 ^ 64

theorem retarget_quotient (oldTarget : Bytes 32) (actual expected : U64) (positive : 0 < expected.toNat) :
    Limbs.value (divU320U64 (mulU256U64 oldTarget actual) expected).1.toList =
        ofBeBytes oldTarget.toList * actual.toNat / expected.toNat ∧ RetargetFits oldTarget actual expected := by
  obtain ⟨product, carried, multiplied⟩ := mul_u256_u64_value oldTarget actual
  obtain ⟨quotient, rem, divided⟩ := div_u320_u64_value (mulU256U64 oldTarget actual) expected positive
  refine ⟨by rw [quotient, product], multiplied, carried, divided, Nat.lt_trans rem expected.isLt⟩

theorem saturated_bytes (quot : List.Vector U64 5) :
    (if quot.head ≠ 0 then List.Vector.replicate 32 (0xFF : U8) else quotBytes quot).toList =
      beBytes 32 (min (2 ^ 256 - 1) (Limbs.value quot.toList)) := by
  have length := quot.tail.toList_length
  have low := Limbs.value_lt quot.tail.toList
  have split : quot.toList = quot.head :: quot.tail.toList := by
    rw [← List.Vector.toList_cons, List.Vector.cons_head_tail]
  rw [length] at low
  rw [split, Limbs.value, length]
  by_cases zero : quot.head = 0
  · have value : ofBeBytes (quotBytes quot).toList = Limbs.value quot.tail.toList := Limbs.of_be_bytes_limbs 8 rfl quot.tail.toList
    have bytes := be_bytes_of_be_bytes (quotBytes quot).toList
    rw [value, List.Vector.toList_length] at bytes
    rw [if_neg (not_not.mpr zero), zero, show (0 : U64).toNat = 0 from rfl, Nat.zero_mul, Nat.zero_add,
      Nat.min_eq_right (by omega), bytes]
  · have high := to_nat_pos quot.head zero
    have wide : 1 * (2 ^ 64) ^ (5 - 1) ≤ quot.head.toNat * (2 ^ 64) ^ (5 - 1) := Nat.mul_le_mul_right _ high
    rw [if_pos zero, Nat.min_eq_left (by omega)]
    decide

theorem bitcoin_retarget_exact (oldTarget : Bytes 32) (actualMs expectedMs : U64) (positive : 0 < expectedMs) :
    (bitcoinRetarget oldTarget actualMs expectedMs).toList =
        beBytes 32 (min (2 ^ 256 - 1) (ofBeBytes oldTarget.toList * clampedMs actualMs expectedMs / expectedMs.toNat)) ∧
      RetargetFits oldTarget (clampRetarget actualMs expectedMs).1 expectedMs := by
  have expected : 0 < expectedMs.toNat := BitVec.lt_def.mp positive
  have nonzero : expectedMs ≠ 0 := by
    rintro rfl
    exact absurd expected (by decide)
  obtain ⟨quotient, fits⟩ := retarget_quotient oldTarget (clampRetarget actualMs expectedMs).1 expectedMs expected
  have saturated := saturated_bytes (divU320U64 (mulU256U64 oldTarget (clampRetarget actualMs expectedMs).1) expectedMs).1
  refine ⟨?_, fits⟩
  rw [quotient, to_nat_clamp_retarget] at saturated
  rw [← saturated, bitcoinRetarget]
  dsimp only [clampRetarget]
  rw [if_neg nonzero]
  rfl

theorem quadrupled_target_exact :
    (bitcoinRetarget (List.Vector.replicate 32 0x11) 4800000 1200000).toList =
        beBytes 32 (min (2 ^ 256 - 1) (ofBeBytes (List.Vector.replicate 32 (0x11 : U8)).toList *
          clampedMs 4800000 1200000 / (1200000 : U64).toNat)) ∧
      RetargetFits (List.Vector.replicate 32 0x11) (clampRetarget 4800000 1200000).1 1200000 :=
  bitcoin_retarget_exact (List.Vector.replicate 32 0x11) 4800000 1200000 (by decide)

end PyGrove.Consensus
