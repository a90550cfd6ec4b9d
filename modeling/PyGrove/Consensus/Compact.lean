import PyGrove.Consensus.Pow
import PyGrove.Lib.Compact

set_option autoImplicit false

namespace PyGrove.Consensus

open Words PyGrove.Core

theorem to_nat_shift_in (mantissa : U32) (byte : U8) (fits : mantissa.toNat < 2 ^ 24) :
    (mantissa <<< 8 ||| byte.setWidth 32).toNat = mantissa.toNat * 256 + byte.toNat := by
  have bound := byte.isLt
  rw [BitVec.toNat_or, BitVec.toNat_shiftLeft, BitVec.toNat_setWidth, Nat.mod_eq_of_lt (by omega : byte.toNat < 2 ^ 32),
    Nat.shiftLeft_eq, Nat.mod_eq_of_lt (by omega), ← Nat.shiftLeft_eq, ← Nat.shiftLeft_add_eq_or_of_lt bound,
    Nat.shiftLeft_eq]

def keptBytes (target : List U8) (leadingZeros : Nat) : U32 :=
  (List.range 3).foldl (fun mantissa i => mantissa <<< 8 ||| (target.getD (leadingZeros + i) 0).setWidth 32) 0

theorem to_nat_kept_bytes (target : List U8) (leadingZeros : Nat) :
    (keptBytes target leadingZeros).toNat =
      ofBeBytes [target.getD leadingZeros 0, target.getD (leadingZeros + 1) 0, target.getD (leadingZeros + 2) 0] := by
  have first := (target.getD leadingZeros 0).isLt
  have second := (target.getD (leadingZeros + 1) 0).isLt
  have one := to_nat_shift_in 0 (target.getD leadingZeros 0) (by decide)
  rw [show (0 : U32).toNat = 0 from rfl] at one
  have two := to_nat_shift_in _ (target.getD (leadingZeros + 1) 0) (by rw [one]; omega)
  have three := to_nat_shift_in _ (target.getD (leadingZeros + 2) 0) (by rw [two, one]; omega)
  rw [two, one] at three
  simp only [ofBeBytes, List.length_cons, List.length_nil]
  rw [show keptBytes target leadingZeros = _ from rfl, keptBytes]
  simp only [List.range_succ, List.range_zero, List.nil_append, List.cons_append, List.foldl_cons, List.foldl_nil, Nat.add_zero]
  rw [three]
  omega

theorem first_three (bytes : List U8) :
    [bytes.getD 0 0, bytes.getD 1 0, bytes.getD 2 0] = (bytes ++ List.replicate 3 0).take 3 := by
  rcases bytes with _ | ⟨a, _ | ⟨b, _ | ⟨c, tail⟩⟩⟩ <;> rfl

theorem kept_bytes_quotient (zeros n : Nat) (rest : List U8) (length : rest.length = n) :
    (keptBytes (List.replicate zeros 0 ++ rest) zeros).toNat = ofBeBytes rest * 256 ^ 3 / 256 ^ n := by
  have padded := of_be_bytes_take (rest ++ List.replicate 3 0) 3
  rw [of_be_bytes_append, of_be_bytes_zeros, Nat.add_zero, List.length_append, List.length_replicate, Nat.add_sub_cancel,
    length] at padded
  rw [to_nat_kept_bytes, ← padded]
  congr 1
  have at_rest : ∀ i, (List.replicate zeros (0 : U8) ++ rest).getD (zeros + i) 0 = rest.getD i 0 := by
    intro i
    rw [List.getD_eq_getElem?_getD, List.getElem?_append_right (by rw [List.length_replicate]; omega), List.length_replicate,
      Nat.add_sub_cancel_left, List.getD_eq_getElem?_getD]
  have first := at_rest 0
  rw [Nat.add_zero] at first
  rw [first, at_rest 1, at_rest 2, first_three]

theorem sign_bit_iff (kept : U32) (fits : kept.toNat < 2 ^ 24) : kept &&& 0x00800000 ≠ 0 ↔ 2 ^ 23 ≤ kept.toNat := by
  rw [show (0x00800000 : U32) = BitVec.twoPow 32 23 by decide, BitVec.and_twoPow, BitVec.getLsbD,
    Nat.testBit_eq_decide_div_mod_eq]
  by_cases set : kept.toNat / 2 ^ 23 % 2 = 1
  · rw [decide_eq_true set, if_pos rfl]
    exact ⟨fun _ => by omega, fun _ => by decide⟩
  · rw [decide_eq_false set, if_neg Bool.false_ne_true]
    exact ⟨fun nonzero => absurd rfl nonzero, fun high => by omega⟩

theorem to_nat_compact (exponent : Nat) (mantissa : U32) (span : exponent ≤ 0xFF) (fits : mantissa.toNat < 2 ^ 23) :
    (BitVec.ofNat 32 exponent <<< 24 ||| (mantissa &&& 0x007FFFFF)).toNat = exponent * 2 ^ 24 + mantissa.toNat := by
  have low : (mantissa &&& 0x007FFFFF).toNat = mantissa.toNat := by
    rw [BitVec.toNat_and, show (0x007FFFFF : U32).toNat = 2 ^ 23 - 1 from rfl, Nat.and_two_pow_sub_one_eq_mod,
      Nat.mod_eq_of_lt fits]
  rw [BitVec.toNat_or, low, BitVec.toNat_shiftLeft, BitVec.toNat_ofNat, Nat.mod_eq_of_lt (by omega : exponent < 2 ^ 32),
    Nat.shiftLeft_eq, Nat.mod_eq_of_lt (by omega), ← Nat.shiftLeft_eq, ← Nat.shiftLeft_add_eq_or_of_lt (by omega),
    Nat.shiftLeft_eq]

theorem compact_parts (exponent mantissa : Nat) (fits : mantissa < 2 ^ 24) :
    (exponent * 2 ^ 24 + mantissa) / 2 ^ 24 = exponent ∧ (exponent * 2 ^ 24 + mantissa) % 2 ^ 24 = mantissa := by
  omega

def CompactOf (value : Nat) (bits : U32) : Prop :=
  (value = 0 ∧ bits = 0) ∨ Compact.Represents value (bits.toNat / 2 ^ 24) (bits.toNat % 2 ^ 24)

instance (value : Nat) (bits : U32) : Decidable (CompactOf value bits) :=
  inferInstanceAs (Decidable ((value = 0 ∧ bits = 0) ∨ Compact.Represents value (bits.toNat / 2 ^ 24) (bits.toNat % 2 ^ 24)))

theorem compact_of_unique (value : Nat) (a b : U32) (first : CompactOf value a) (second : CompactOf value b) : a = b := by
  rcases first with ⟨zero, rfl⟩ | first
  · rcases second with ⟨_, rfl⟩ | second
    · rfl
    · exact absurd zero (Compact.represents_positive _ _ _ second)
  · rcases second with ⟨zero, _⟩ | second
    · exact absurd zero (Compact.represents_positive _ _ _ first)
    · obtain ⟨exponent, mantissa⟩ := Compact.represents_unique _ _ _ _ _ first second
      apply BitVec.eq_of_toNat_eq
      omega

theorem compact_kept (value n : Nat) (kept : U32) (negative : Bool) (span : n ≤ 32) (low : 2 ^ 16 ≤ kept.toNat)
    (fits : kept.toNat < 2 ^ 24) (sign : negative ↔ 2 ^ 23 ≤ kept.toNat)
    (quotient : value * 256 ^ 3 / 256 ^ n = kept.toNat) :
    CompactOf value
      (if 0xFF < (if negative then n + 1 else n) then 0
      else
        BitVec.ofNat 32 (if negative then n + 1 else n) <<< 24 |||
          ((if negative then kept >>> 8 else kept) &&& 0x007FFFFF)) := by
  cases negative with
  | true =>
      have high := sign.mp rfl
      have shifted : (kept >>> 8).toNat = kept.toNat / 256 := by
        rw [BitVec.toNat_ushiftRight, Nat.shiftRight_eq_div_pow]
      have packed := to_nat_compact (n + 1) (kept >>> 8) (by omega) (by omega)
      obtain ⟨exponent, mantissa⟩ := compact_parts (n + 1) (kept.toNat / 256) (by omega)
      rw [if_pos rfl, if_pos rfl, if_neg (by omega)]
      right
      rw [packed, shifted, exponent, mantissa]
      apply Compact.represents_of_quotient _ _ _ (by omega) (by omega)
      rw [Nat.pow_succ 256 n, ← Nat.div_div_eq_div_mul, quotient]
  | false =>
      have plain : ¬ 2 ^ 23 ≤ kept.toNat := fun high => Bool.false_ne_true (sign.mpr high)
      have packed := to_nat_compact n kept (by omega) (by omega)
      obtain ⟨exponent, mantissa⟩ := compact_parts n kept.toNat fits
      rw [if_neg Bool.false_ne_true, if_neg Bool.false_ne_true, if_neg (by omega)]
      right
      rw [packed, exponent, mantissa]
      exact Compact.represents_of_quotient _ _ _ (by omega) (by omega) quotient

theorem leading_zeros (bytes : List U8) :
    ∃ rest, bytes = List.replicate (bytes.takeWhile (· = 0)).length 0 ++ rest ∧ ∀ first ∈ rest.head?, first ≠ 0 := by
  induction bytes with
  | nil => exact ⟨[], rfl, by simp⟩
  | cons byte tail ih =>
      by_cases zero : byte = 0
      · obtain ⟨rest, same, nonzero⟩ := ih
        refine ⟨rest, ?_, nonzero⟩
        rw [List.takeWhile_cons_of_pos (by simpa using zero), List.length_cons, List.replicate_succ, List.cons_append,
          ← same, zero]
      · refine ⟨byte :: tail, ?_, by simpa using zero⟩
        rw [List.takeWhile_cons_of_neg (by simpa using zero)]
        rfl

theorem bits_from_target_compact (target : Bytes 32) : CompactOf (ofBeBytes target.toList) (bitsFromTarget target) := by
  have length := target.toList_length
  obtain ⟨rest, split, nonzero⟩ := leading_zeros target.toList
  unfold bitsFromTarget
  dsimp only
  generalize (target.toList.takeWhile (· = 0)).length = zeros at split ⊢
  have total : zeros + rest.length = 32 := by
    rw [split, List.length_append, List.length_replicate] at length
    exact length
  have value : ofBeBytes target.toList = ofBeBytes rest := by
    rw [split, of_be_bytes_append, of_be_bytes_zeros, Nat.zero_mul, Nat.zero_add]
  cases rest with
  | nil =>
      rw [if_pos (by rw [List.length_nil] at total; omega), value]
      exact .inl ⟨rfl, rfl⟩
  | cons first tail =>
      have span : 32 - zeros = tail.length + 1 := by
        rw [List.length_cons] at total
        omega
      have kept := kept_bytes_quotient zeros (tail.length + 1) (first :: tail) rfl
      have lead : 1 ≤ first.toNat := by
        have positive : first ≠ 0 := nonzero first rfl
        rw [ne_eq, ← BitVec.toNat_inj] at positive
        exact Nat.one_le_iff_ne_zero.mpr positive
      have positive : 0 < 256 ^ (tail.length + 1) := Nat.pow_pos (by decide)
      have low : 2 ^ 16 * 256 ^ (tail.length + 1) ≤ ofBeBytes (first :: tail) * 256 ^ 3 := by
        have scaled := Nat.mul_le_mul_right (256 ^ tail.length) lead
        rw [Nat.pow_succ, ofBeBytes]
        omega
      have high : ofBeBytes (first :: tail) * 256 ^ 3 < 2 ^ 24 * 256 ^ (tail.length + 1) := by
        have bound := of_be_bytes_lt (first :: tail)
        rw [List.length_cons] at bound
        omega
      rw [← split] at kept
      rw [if_neg (by omega), span, value]
      have lowKept : 2 ^ 16 ≤ (keptBytes target.toList zeros).toNat := by
        rw [kept, Nat.le_div_iff_mul_le positive]
        exact low
      have highKept : (keptBytes target.toList zeros).toNat < 2 ^ 24 := by
        rw [kept, Nat.div_lt_iff_lt_mul positive]
        exact high
      refine compact_kept _ _ _ _ (by omega) lowKept highKept ?_ kept.symm
      rw [decide_eq_true_iff]
      exact sign_bit_iff _ highKept

theorem bits_from_target_iff (target : Bytes 32) (bits : U32) :
    bitsFromTarget target = bits ↔ CompactOf (ofBeBytes target.toList) bits :=
  ⟨fun same => same ▸ bits_from_target_compact target,
    fun compact => compact_of_unique _ _ _ (bits_from_target_compact target) compact⟩

theorem set_after_zeros (zeros : Nat) (bytes : List U8) (i : Nat) (byte : U8) :
    (List.replicate zeros (0 : U8) ++ bytes).set (zeros + i) byte = List.replicate zeros 0 ++ bytes.set i byte := by
  rw [List.set_append_right _ _ (by rw [List.length_replicate]; omega), List.length_replicate, Nat.add_sub_cancel_left]

theorem set_three (exponent : Nat) (a b c : U8) :
    (((List.replicate exponent (0 : U8)).set 0 a).set 1 b).set 2 c =
      ([a, b, c] ++ List.replicate exponent 0).take exponent := by
  match exponent with
  | 0 => rfl
  | 1 => rfl
  | 2 => rfl
  | n + 3 =>
      have rest : (List.replicate (n + 3) (0 : U8)).take n = List.replicate n 0 := by
        rw [List.take_replicate, Nat.min_eq_left (Nat.le_add_right n 3)]
      exact (congrArg (fun tail => a :: b :: c :: tail) rest).symm

def targetValue (bits : U32) : Nat :=
  if bits.toNat / 2 ^ 24 = 0 ∨ 32 < bits.toNat / 2 ^ 24 then 0
  else bits.toNat % 2 ^ 23 * 256 ^ (bits.toNat / 2 ^ 24) / 256 ^ 3

theorem to_nat_target_from_bits (bits : U32) : ofBeBytes (targetFromBits bits).toList = targetValue bits := by
  have exponent : (bits >>> 24).toNat = bits.toNat / 2 ^ 24 := by
    rw [BitVec.toNat_ushiftRight, Nat.shiftRight_eq_div_pow]
  have mantissa : (bits &&& 0x007FFFFF).toNat = bits.toNat % 2 ^ 23 := by
    rw [BitVec.toNat_and, show (0x007FFFFF : U32).toNat = 2 ^ 23 - 1 from rfl, Nat.and_two_pow_sub_one_eq_mod]
  rw [show (targetFromBits bits).toList = targetBytes bits from rfl, targetBytes, targetValue, exponent]
  by_cases empty : bits.toNat / 2 ^ 24 = 0 ∨ 32 < bits.toNat / 2 ^ 24
  · rw [if_pos empty, if_pos empty, of_be_bytes_zeros]
  · rw [if_neg empty, if_neg empty]
    generalize bits.toNat / 2 ^ 24 = e at empty ⊢
    generalize (bits &&& 0x007FFFFF).toNat = m at mantissa ⊢
    have read := of_be_bytes_be_bytes 3 m (by omega)
    obtain ⟨zeros, total⟩ : ∃ zeros, 32 = zeros + e := ⟨32 - e, by omega⟩
    obtain ⟨a, b, c, bytes⟩ : ∃ a b c, beBytes 3 m = [a, b, c] := ⟨_, _, _, rfl⟩
    have cut := of_be_bytes_take ([a, b, c] ++ List.replicate e 0) e
    rw [of_be_bytes_append, of_be_bytes_zeros, List.length_append, List.length_replicate, Nat.add_sub_cancel, ← bytes, read,
      length_be_bytes, Nat.add_zero, bytes] at cut
    rw [show (beBytes 4 m).drop 1 = beBytes 3 m from rfl, bytes, ← mantissa, ← cut, ← set_three, total, Nat.add_sub_cancel,
      List.replicate_add]
    simp only [List.zipIdx_cons, List.zipIdx_nil, List.foldl_cons, List.foldl_nil, set_after_zeros]
    rw [of_be_bytes_append, of_be_bytes_zeros, Nat.zero_mul, Nat.zero_add]

end PyGrove.Consensus
