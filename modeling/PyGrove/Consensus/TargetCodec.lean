import PyGrove.Consensus.Compact

set_option autoImplicit false

namespace PyGrove.Consensus

open Words PyGrove.Core

theorem target_value_lt (bits : U32) : targetValue bits < 2 ^ 255 := by
  simp only [targetValue]
  split
  · decide
  · rename_i used
    have scale : 256 ^ (bits.toNat / 2 ^ 24) ≤ 256 ^ 32 := Nat.pow_le_pow_right (by decide) (by omega)
    have most : bits.toNat % 2 ^ 23 * 256 ^ (bits.toNat / 2 ^ 24) ≤ (2 ^ 23 - 1) * 256 ^ 32 :=
      Nat.mul_le_mul (by omega) scale
    rw [Nat.div_lt_iff_lt_mul (by decide)]
    exact lt_of_le_of_lt most (by decide)

theorem compact_exponent (value e m : Nat) (compact : Compact.Represents value e m) :
    e ≠ 0 ∧ (value < 2 ^ 255 ↔ e ≤ 32) := by
  have floor := compact.floor
  have ceil := compact.ceil
  have positive := Compact.represents_positive value e m compact
  refine ⟨?_, ?_⟩
  · rintro rfl
    have high := compact.high
    omega
  · constructor
    · intro fits
      by_contra long
      have scale : 256 ^ 33 ≤ 256 ^ e := Nat.pow_le_pow_right (by decide) (by omega)
      have least : 2 ^ 15 * 256 ^ 33 ≤ m * 256 ^ e := Nat.mul_le_mul compact.low scale
      omega
    · intro span
      have scale : 256 ^ e ≤ 256 ^ 32 := Nat.pow_le_pow_right (by decide) span
      have most : (m + 1) * 256 ^ e ≤ 2 ^ 23 * 256 ^ 32 := Nat.mul_le_mul compact.high scale
      omega

theorem compact_represents (value : Nat) (bits : U32) (compact : CompactOf value bits) (nonzero : value ≠ 0) :
    Compact.Represents value (bits.toNat / 2 ^ 24) (bits.toNat % 2 ^ 24) := by
  rcases compact with ⟨zero, _⟩ | represents
  · exact absurd zero nonzero
  · exact represents

theorem decoded_rounds (value : Nat) (bits : U32) (compact : CompactOf value bits) (nonzero : value ≠ 0)
    (fits : value < 2 ^ 255) : Compact.RoundsTo value (targetValue bits) := by
  have represents := compact_represents value bits compact nonzero
  obtain ⟨used, span⟩ := compact_exponent value _ _ represents
  have mantissa : bits.toNat % 2 ^ 23 = bits.toNat % 2 ^ 24 := by
    have high := represents.high
    omega
  rw [targetValue, if_neg (by have := span.mp fits; omega), mantissa]
  exact Compact.represents_read_back value _ _ represents

theorem decoded_top (value : Nat) (bits : U32) (compact : CompactOf value bits) (top : 2 ^ 255 ≤ value) :
    targetValue bits = 0 := by
  have represents := compact_represents value bits compact (by omega)
  obtain ⟨_, span⟩ := compact_exponent value _ _ represents
  have long : ¬ bits.toNat / 2 ^ 24 ≤ 32 := fun short => by
    have fits := span.mpr short
    omega
  rw [targetValue, if_pos (.inr (by omega))]

theorem decoded_compact (value : Nat) (bits : U32) (compact : CompactOf value bits) (nonzero : value ≠ 0)
    (fits : value < 2 ^ 255) : CompactOf (targetValue bits) bits :=
  .inr (Compact.represents_rounded value (targetValue bits) _ _ (compact_represents value bits compact nonzero)
    (decoded_rounds value bits compact nonzero fits))

def leadingIndex (target : Bytes 32) : Nat := (target.toList.takeWhile (· = 0)).length

def leadingByte (target : Bytes 32) : U8 := target.toList.getD (leadingIndex target) 0

theorem leading_byte_value (target : Bytes 32) (nonzero : ofBeBytes target.toList ≠ 0) :
    leadingIndex target < 32 ∧ 1 ≤ (leadingByte target).toNat ∧
      ofBeBytes target.toList / 256 ^ (31 - leadingIndex target) = (leadingByte target).toNat := by
  have length := target.toList_length
  obtain ⟨rest, split, lead⟩ := leading_zeros target.toList
  rw [← leadingIndex] at split
  have value : ofBeBytes target.toList = ofBeBytes rest := by
    rw [split, of_be_bytes_append, of_be_bytes_zeros, Nat.zero_mul, Nat.zero_add]
  have total : leadingIndex target + rest.length = 32 := by
    rw [split, List.length_append, List.length_replicate] at length
    exact length
  cases rest with
  | nil => exact absurd value nonzero
  | cons first tail =>
      have byte : leadingByte target = first := by
        rw [leadingByte, split, List.getD_eq_getElem?_getD,
          List.getElem?_append_right (by rw [List.length_replicate]), List.length_replicate, Nat.sub_self]
        rfl
      have bound := of_be_bytes_lt tail
      have unit : 0 < 256 ^ tail.length := Nat.pow_pos (by decide)
      rw [List.length_cons] at total
      have place : 31 - leadingIndex target = tail.length := by omega
      refine ⟨by omega, ?_, ?_⟩
      · rw [byte]
        exact to_nat_pos first (lead first rfl)
      · rw [value, byte, place, ofBeBytes, Nat.mul_comm, Nat.mul_add_div unit, Nat.div_eq_of_lt bound, Nat.add_zero]

theorem leading_unique (a b : Bytes 32) (nonzeroA : ofBeBytes a.toList ≠ 0) (nonzeroB : ofBeBytes b.toList ≠ 0)
    (same : ofBeBytes a.toList / 256 ^ (31 - leadingIndex b) = (leadingByte b).toNat) :
    leadingIndex a = leadingIndex b ∧ leadingByte a = leadingByte b := by
  obtain ⟨insideA, positiveA, valueA⟩ := leading_byte_value a nonzeroA
  obtain ⟨insideB, positiveB, _⟩ := leading_byte_value b nonzeroB
  have byteA := (leadingByte a).isLt
  have byteB := (leadingByte b).isLt
  have place : leadingIndex a = leadingIndex b := by
    rcases Nat.lt_trichotomy (leadingIndex a) (leadingIndex b) with before | equal | after
    · have scale : 256 ^ (31 - leadingIndex b + 1) ≤ 256 ^ (31 - leadingIndex a) :=
        Nat.pow_le_pow_right (by decide) (by omega)
      have least := Nat.div_mul_le_self (ofBeBytes a.toList) (256 ^ (31 - leadingIndex a))
      rw [valueA] at least
      have above : 1 * 256 ^ (31 - leadingIndex a) ≤ (leadingByte a).toNat * 256 ^ (31 - leadingIndex a) :=
        Nat.mul_le_mul_right _ positiveA
      rw [Nat.pow_succ'] at scale
      have high : 256 ≤ ofBeBytes a.toList / 256 ^ (31 - leadingIndex b) := by
        rw [Nat.le_div_iff_mul_le (Nat.pow_pos (by decide))]
        omega
      omega
    · exact equal
    · have scale : 256 ^ (31 - leadingIndex a + 1) ≤ 256 ^ (31 - leadingIndex b) :=
        Nat.pow_le_pow_right (by decide) (by omega)
      have most := Nat.lt_mul_div_succ (ofBeBytes a.toList) (Nat.pow_pos (n := 31 - leadingIndex a) (by decide : 0 < 256))
      have full : 256 ^ (31 - leadingIndex a) * ((leadingByte a).toNat + 1) ≤ 256 ^ (31 - leadingIndex a) * 256 :=
        Nat.mul_le_mul_left _ byteA
      rw [valueA] at most
      rw [Nat.pow_succ] at scale
      rw [Nat.div_eq_of_lt (by omega)] at same
      omega
  refine ⟨place, BitVec.eq_of_toNat_eq ?_⟩
  rw [← valueA, place, same]

def keptPlaces (target : Bytes 32) : Nat := if (leadingByte target).toNat < 2 ^ 7 then 3 else 2

structure ReadsBack (target decoded : Bytes 32) (bits : U32) : Prop where
  nonzero : ofBeBytes decoded.toList ≠ 0
  below : ofBeBytes decoded.toList ≤ ofBeBytes target.toList
  place : leadingIndex decoded = leadingIndex target
  leading : leadingByte decoded = leadingByte target
  close : (ofBeBytes target.toList - ofBeBytes decoded.toList) * 256 ^ keptPlaces target < 256 ^ (32 - leadingIndex target)
  again : bitsFromTarget decoded = bits

theorem reads_back_below_top (target : Bytes 32) (nonzero : ofBeBytes target.toList ≠ 0)
    (fits : ofBeBytes target.toList < 2 ^ 255) :
    ReadsBack target (targetFromBits (bitsFromTarget target)) (bitsFromTarget target) := by
  have compact := bits_from_target_compact target
  have rounds := decoded_rounds _ _ compact nonzero fits
  have again := decoded_compact _ _ compact nonzero fits
  rw [← to_nat_target_from_bits] at rounds again
  obtain ⟨inside, positive, leading⟩ := leading_byte_value target nonzero
  have byte := (leadingByte target).isLt
  have kept := Compact.rounds_leading _ _ _ _ leading positive byte rounds
  have decodedNonzero : ofBeBytes (targetFromBits (bitsFromTarget target)).toList ≠ 0 := by
    intro zero
    rw [zero, Nat.zero_div] at kept
    omega
  obtain ⟨place, sameByte⟩ := leading_unique _ target decodedNonzero nonzero kept
  refine ⟨decodedNonzero, Compact.rounds_le _ _ rounds, place, sameByte, ?_, (bits_from_target_iff _ _).mpr again⟩
  obtain ⟨m, represents⟩ := Compact.represents_leading _ _ _ leading positive byte
  have gap := Compact.rounds_gap _ _ _ m represents rounds
  have width : 31 - leadingIndex target + 1 = 32 - leadingIndex target := by omega
  simp only [keptPlaces]
  by_cases plain : (leadingByte target).toNat < 2 ^ 7
  · rw [if_pos plain] at gap ⊢
    rwa [width] at gap
  · rw [if_neg plain] at gap ⊢
    apply Nat.lt_of_mul_lt_mul_right (a := 256)
    rwa [← width, ← Nat.pow_succ, Nat.mul_assoc, ← Nat.pow_succ]

theorem reads_back_iff (target : Bytes 32) (nonzero : ofBeBytes target.toList ≠ 0) :
    ReadsBack target (targetFromBits (bitsFromTarget target)) (bitsFromTarget target) ↔
      ofBeBytes target.toList < 2 ^ 255 := by
  constructor
  · intro reads
    by_contra top
    apply reads.nonzero
    rw [to_nat_target_from_bits]
    exact decoded_top _ _ (bits_from_target_compact target) (by omega)
  · exact reads_back_below_top target nonzero

def oneByteTarget (index : Nat) (byte : U8) : Bytes 32 :=
  ⟨(List.replicate 32 0).set index byte, by simp⟩

theorem sign_byte_reads_back :
    ReadsBack (oneByteTarget 5 0x80) (targetFromBits (bitsFromTarget (oneByteTarget 5 0x80)))
        (bitsFromTarget (oneByteTarget 5 0x80)) ↔
      ofBeBytes (oneByteTarget 5 0x80).toList < 2 ^ 255 :=
  reads_back_iff (oneByteTarget 5 0x80) (by decide)

theorem top_bit_lost :
    ofBeBytes (oneByteTarget 0 0x80).toList ≠ 0 ∧
      ¬ ReadsBack (oneByteTarget 0 0x80) (targetFromBits (bitsFromTarget (oneByteTarget 0 0x80)))
        (bitsFromTarget (oneByteTarget 0 0x80)) := by
  refine ⟨by decide, fun reads => reads.nonzero ?_⟩
  decide +kernel

end PyGrove.Consensus
