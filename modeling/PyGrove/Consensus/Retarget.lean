import PyGrove.Consensus.Asert
import PyGrove.Consensus.Compact

set_option autoImplicit false

namespace PyGrove.Consensus

open Words PyGrove.Core

-- The multiplier of one block as an exact fixed-point number: time lost
-- against the schedule, in half-lives, times ln 2, plus one.
def growthQ16 (elapsedMs targetBlockTimeMs tauMs : Int) : Int :=
  2 ^ 16 + ((elapsedMs - targetBlockTimeMs) * 2 ^ 16).tdiv tauMs * 45426 / 2 ^ 16

def scaledUpper (hi : Nat) (growth : Int) : Nat :=
  if growth < 0 then 0 else max (min (hi * growth.toNat) (2 ^ 128 - 1) / 2 ^ 16) 1

def retargetValue (value : Nat) (growth : Int) : Nat :=
  let hi := value / 2 ^ 128
  let lower := max (min (hi * 100) (2 ^ 128 - 1) / 108) 1
  let upper := min (hi * 108) (2 ^ 128 - 1) / 100
  max lower (min (scaledUpper hi growth) upper) * 2 ^ 128 + value % 2 ^ 128

theorem pow2_q16_exact (num : Int) (den : Nat) (positive : 0 < den) (low : -2 ^ 66 ≤ num) (high : num < 2 ^ 66) :
    pow2Q16 num den = 2 ^ 16 + (num * 2 ^ 16).tdiv den * 45426 / 2 ^ 16 := by
  have small := Int.natAbs_tdiv_le_natAbs (num * 2 ^ 16) den
  have divisor : max (den : Int) 1 = den := by omega
  unfold pow2Q16
  dsimp only
  rw [saturate_signed_fits (num * 2 ^ 16) (by omega) (by omega), divisor]
  generalize (num * 2 ^ 16).tdiv den = xQ16 at small ⊢
  rw [saturate_signed_fits _ (by omega) (by omega)]
  exact congrArg (2 ^ 16 + ·) (Int.shiftRight_eq_div_pow ..)

theorem growth_bounds (elapsedMs : Int) (targetBlockTimeMs tauMs : Nat) (low : -2 ^ 64 < elapsedMs) (high : elapsedMs < 2 ^ 64)
    (block : targetBlockTimeMs < 2 ^ 64) :
    -2 ^ 100 ≤ growthQ16 elapsedMs targetBlockTimeMs tauMs ∧ growthQ16 elapsedMs targetBlockTimeMs tauMs < 2 ^ 100 := by
  have small := Int.natAbs_tdiv_le_natAbs ((elapsedMs - targetBlockTimeMs) * 2 ^ 16) tauMs
  simp only [growthQ16]
  omega

theorem to_nat_rescaled_upper (hi : U128) (growth : Int) (low : -2 ^ 100 ≤ growth) (high : growth < 2 ^ 100) :
    (rescaledUpper hi growth).toNat = scaledUpper hi.toNat growth := by
  simp only [rescaledUpper, scaledUpper]
  by_cases negative : growth < 0
  · rw [if_pos negative, if_pos negative]
    rfl
  · have exact : (BitVec.ofInt 128 growth).toNat = growth.toNat := by
      rw [BitVec.toNat_ofInt, Int.emod_eq_of_lt (by omega) (by omega)]
    rw [if_neg negative, if_neg negative, to_nat_word_max, BitVec.toNat_ushiftRight, to_nat_saturating_mul, exact,
      Nat.shiftRight_eq_div_pow]
    rfl

theorem clamped_upper_value (hi : U128) (growth : Int) (low : -2 ^ 100 ≤ growth) (high : growth < 2 ^ 100) (nonzero : hi.toNat ≠ 0) :
    ∃ moved, clampedUpper hi growth = some moved ∧
      moved.toNat = max (max (min (hi.toNat * 100) (2 ^ 128 - 1) / 108) 1)
        (min (scaledUpper hi.toNat growth) (min (hi.toNat * 108) (2 ^ 128 - 1) / 100)) := by
  have bound := hi.isLt
  have lower : (wordMax (saturatingMul hi 100 / 108) 1).toNat = max (min (hi.toNat * 100) (2 ^ 128 - 1) / 108) 1 := by
    rw [to_nat_word_max, BitVec.toNat_udiv, to_nat_saturating_mul]
    rfl
  have upper : (saturatingMul hi 108 / 100).toNat = min (hi.toNat * 108) (2 ^ 128 - 1) / 100 := by
    rw [BitVec.toNat_udiv, to_nat_saturating_mul]
    rfl
  have ordered : (wordMax (saturatingMul hi 100 / 108) 1).toNat ≤ (saturatingMul hi 108 / 100).toNat := by
    rw [lower, upper]
    omega
  refine ⟨_, if_pos ordered, ?_⟩
  rw [to_nat_word_clamp _ _ _ ordered, lower, upper, to_nat_rescaled_upper hi growth low high]

theorem to_nat_upper_half (target : Bytes 32) : (upperHalf target).toNat = ofBeBytes target.toList / 2 ^ 128 := by
  have small := of_be_bytes_lt (target.toList.take 16)
  have cut := of_be_bytes_take target.toList 16
  rw [List.length_take, target.toList_length] at small
  rw [target.toList_length] at cut
  rw [upperHalf, BitVec.toNat_ofNat, Nat.mod_eq_of_lt (show _ < 2 ^ 128 from small)]
  exact cut

theorem replace_upper_value (target : Bytes 32) (hi : U128) :
    ofBeBytes (replaceUpper target hi).toList = hi.toNat * 2 ^ 128 + ofBeBytes target.toList % 2 ^ 128 := by
  have cut := of_be_bytes_drop target.toList 16
  rw [target.toList_length] at cut
  rw [show (replaceUpper target hi).toList = beBytes 16 hi.toNat ++ target.toList.drop 16 from rfl, of_be_bytes_append,
    of_be_bytes_be_bytes 16 hi.toNat (word_lt_bytes hi (by decide)), cut, List.length_drop, target.toList_length]
  rfl

theorem asert_not_early (anchorHeight tauMs : U64) (grows : anchorHeight ≠ BitVec.allOnes 64) (positive : tauMs ≠ 0) :
    ¬ (anchorHeight + 1 ≤ anchorHeight ∨ tauMs = 0) := by
  rw [BitVec.le_def, to_nat_succ anchorHeight (to_nat_lt_top anchorHeight grows)]
  intro stopped
  rcases stopped with stuck | noTau
  · omega
  · exact positive noTau

theorem asert_target_value (anchorBits : U32) (anchorTimestampMs anchorHeight newBlockTimestampMs targetBlockTimeMs tauMs : U64)
    (grows : anchorHeight ≠ BitVec.allOnes 64) (positive : tauMs ≠ 0) (nonzero : targetValue anchorBits / 2 ^ 128 ≠ 0) :
    ∃ target, asertTarget anchorBits anchorTimestampMs anchorHeight newBlockTimestampMs (anchorHeight + 1) targetBlockTimeMs
        tauMs = some target ∧
      ofBeBytes target.toList = retargetValue (targetValue anchorBits)
        (growthQ16 (newBlockTimestampMs.toNat - anchorTimestampMs.toNat) targetBlockTimeMs.toNat tauMs.toNat) := by
  have early := asert_not_early anchorHeight tauMs grows positive
  have single : (anchorHeight + 1 - anchorHeight).toNat = 1 := by
    rw [BitVec.add_comm, BitVec.add_sub_cancel]
    rfl
  have block := targetBlockTimeMs.isLt
  have newBound := newBlockTimestampMs.isLt
  have anchorBound := anchorTimestampMs.isLt
  have tau := to_nat_pos tauMs positive
  have growth := growth_bounds (newBlockTimestampMs.toNat - anchorTimestampMs.toNat) targetBlockTimeMs.toNat tauMs.toNat
    (by omega) (by omega) block
  have mult := pow2_q16_exact (newBlockTimestampMs.toNat - anchorTimestampMs.toNat - targetBlockTimeMs.toNat) tauMs.toNat
    tau (by omega) (by omega)
  have upper := to_nat_upper_half (targetFromBits anchorBits)
  rw [to_nat_target_from_bits] at upper
  obtain ⟨moved, clamped, value⟩ := clamped_upper_value (upperHalf (targetFromBits anchorBits)) _ growth.1 growth.2
    (by rw [upper]; exact nonzero)
  refine ⟨replaceUpper (targetFromBits anchorBits) moved, ?_, ?_⟩
  · unfold asertTarget
    dsimp only
    rw [if_neg early, single, Int.natCast_one, Int.one_mul, wrap_signed_fits targetBlockTimeMs.toNat (by omega) (by omega),
      wrap_signed_fits _ (by omega) (by omega), mult]
    exact congrArg (Option.map _) clamped
  · rw [replace_upper_value, to_nat_target_from_bits, value, upper]
    rfl

def nextTauMs (parentHeight bootstrapHeight bootstrapAsertTauMs asertTauMs : U64) : U64 :=
  if parentHeight + 1 < bootstrapHeight then bootstrapAsertTauMs else asertTauMs

def RetargetsTo (parentBits : U32) (parentHeight parentTimestampMs newBlockTimestampMs targetBlockTimeMs tauMs : U64)
    (bits : U32) : Prop :=
  ((parentHeight = BitVec.allOnes 64 ∨ tauMs = 0) ∧ CompactOf (targetValue parentBits) bits) ∨
    (parentHeight ≠ BitVec.allOnes 64 ∧ tauMs ≠ 0 ∧ targetValue parentBits / 2 ^ 128 ≠ 0 ∧
      CompactOf (retargetValue (targetValue parentBits)
        (growthQ16 (newBlockTimestampMs.toNat - parentTimestampMs.toNat) targetBlockTimeMs.toNat tauMs.toNat)) bits)

instance (parentBits : U32) (parentHeight parentTimestampMs newBlockTimestampMs targetBlockTimeMs tauMs : U64) (bits : U32) :
    Decidable (RetargetsTo parentBits parentHeight parentTimestampMs newBlockTimestampMs targetBlockTimeMs tauMs bits) :=
  instDecidableOr

theorem asert_target_early (anchorBits : U32) (anchorTimestampMs anchorHeight newBlockTimestampMs targetBlockTimeMs tauMs : U64)
    (early : anchorHeight = BitVec.allOnes 64 ∨ tauMs = 0) :
    asertTarget anchorBits anchorTimestampMs anchorHeight newBlockTimestampMs (anchorHeight + 1) targetBlockTimeMs tauMs =
      some (targetFromBits anchorBits) := by
  rw [asertTarget]
  apply if_pos
  rcases early with rfl | noTau
  · exact .inl (by decide)
  · exact .inr noTau

theorem asert_target_empty (anchorBits : U32) (anchorTimestampMs anchorHeight newBlockTimestampMs targetBlockTimeMs tauMs : U64)
    (empty : targetValue anchorBits / 2 ^ 128 = 0) (grows : anchorHeight ≠ BitVec.allOnes 64) (positive : tauMs ≠ 0) :
    asertTarget anchorBits anchorTimestampMs anchorHeight newBlockTimestampMs (anchorHeight + 1) targetBlockTimeMs tauMs =
      none := by
  have upper := to_nat_upper_half (targetFromBits anchorBits)
  rw [to_nat_target_from_bits, empty] at upper
  exact (asert_target_panics_iff ..).mpr ⟨asert_not_early anchorHeight tauMs grows positive, BitVec.eq_of_toNat_eq upper⟩

theorem next_bits_iff (parentBits : U32) (parentHeight parentTimestampMs newBlockTimestampMs targetBlockTimeMs
    bootstrapHeight bootstrapAsertTauMs asertTauMs : U64) (bits : U32) :
    nextBitsFromParent parentBits parentHeight parentTimestampMs newBlockTimestampMs targetBlockTimeMs bootstrapHeight
        bootstrapAsertTauMs asertTauMs = some bits ↔
      RetargetsTo parentBits parentHeight parentTimestampMs newBlockTimestampMs targetBlockTimeMs
        (nextTauMs parentHeight bootstrapHeight bootstrapAsertTauMs asertTauMs) bits := by
  rw [nextBitsFromParent, ← nextTauMs, RetargetsTo]
  generalize nextTauMs parentHeight bootstrapHeight bootstrapAsertTauMs asertTauMs = tauMs
  by_cases early : parentHeight = BitVec.allOnes 64 ∨ tauMs = 0
  · rw [asert_target_early _ _ _ _ _ _ early, Option.map_some, Option.some.injEq, bits_from_target_iff,
      to_nat_target_from_bits]
    constructor
    · intro compact
      exact .inl ⟨early, compact⟩
    · intro retargets
      rcases retargets with ⟨_, compact⟩ | ⟨grows, positive, _⟩
      · exact compact
      · exact absurd early (not_or.mpr ⟨grows, positive⟩)
  · obtain ⟨grows, positive⟩ := not_or.mp early
    by_cases empty : targetValue parentBits / 2 ^ 128 = 0
    · rw [asert_target_empty _ _ _ _ _ _ empty grows positive]
      constructor
      · intro panicked
        cases panicked
      · intro retargets
        rcases retargets with ⟨stopped, _⟩ | ⟨_, _, nonzero, _⟩
        · exact absurd stopped early
        · exact absurd empty nonzero
    · obtain ⟨target, computed, value⟩ := asert_target_value parentBits parentTimestampMs parentHeight newBlockTimestampMs
        targetBlockTimeMs tauMs grows positive empty
      rw [computed, Option.map_some, Option.some.injEq, bits_from_target_iff, value]
      constructor
      · intro compact
        exact .inr ⟨grows, positive, empty, compact⟩
      · intro retargets
        rcases retargets with ⟨stopped, _⟩ | ⟨_, _, _, compact⟩
        · exact absurd stopped early
        · exact compact

end PyGrove.Consensus
