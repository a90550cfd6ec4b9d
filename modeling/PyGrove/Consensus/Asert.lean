import PyGrove.Consensus.Pow

set_option autoImplicit false

namespace PyGrove.Consensus

open Words

-- 2^(num/den) in Q16.16, by the linear approximation. Division truncates
-- towards zero and the shift rounds down.
def pow2Q16 (num den : Int) : Int :=
  let xQ16 := (saturateSigned 128 (num * 2 ^ 16)).tdiv (max den 1)
  let deltaQ16 := (saturateSigned 128 (xQ16 * 45426)).shiftRight 16
  2 ^ 16 + deltaQ16

def checkedClamp (a lower upper : U128) : Option U128 :=
  if lower.toNat ≤ upper.toNat then some (wordClamp a lower upper) else none

def upperHalf (target : Bytes 32) : U128 := BitVec.ofNat 128 (ofBeBytes (target.toList.take 16))

def replaceUpper (target : Bytes 32) (hi : U128) : Bytes 32 :=
  ⟨beBytes 16 hi.toNat ++ target.toList.drop 16, by simp⟩

def rescaledUpper (hi : U128) (multQ16 : Int) : U128 :=
  if multQ16 < 0 then 0 else wordMax (saturatingMul hi (BitVec.ofInt 128 multQ16) >>> 16) 1

def clampedUpper (hi : U128) (multQ16 : Int) : Option U128 :=
  checkedClamp (rescaledUpper hi multQ16) (wordMax (saturatingMul hi 100 / 108) 1) (saturatingMul hi 108 / 100)

-- none is the panic of the clamp.
def asertTarget (anchorBits : U32) (anchorTimestampMs anchorHeight newBlockTimestampMs newBlockHeight
    targetBlockTimeMs tauMs : U64) : Option (Bytes 32) :=
  if newBlockHeight ≤ anchorHeight ∨ tauMs = 0 then some (targetFromBits anchorBits)
  else
    let heightDiff : Int := (newBlockHeight - anchorHeight).toNat
    let elapsedMs : Int := newBlockTimestampMs.toNat - anchorTimestampMs.toNat
    let expectedElapsedMs := wrapSigned 128 (heightDiff * targetBlockTimeMs.toNat)
    let exponentNumMs := wrapSigned 128 (elapsedMs - expectedElapsedMs)
    let multQ16 := pow2Q16 exponentNumMs tauMs.toNat
    let anchor := targetFromBits anchorBits
    (clampedUpper (upperHalf anchor) multQ16).map (replaceUpper anchor)

-- The height of the new block wraps at u64::MAX like the addition of a release build.
def nextBitsFromParent (parentBits : U32) (parentHeight parentTimestampMs newBlockTimestampMs targetBlockTimeMs
    bootstrapHeight bootstrapAsertTauMs asertTauMs : U64) : Option U32 :=
  let newHeight := parentHeight + 1
  let tauMs := if newHeight < bootstrapHeight then bootstrapAsertTauMs else asertTauMs
  (asertTarget parentBits parentTimestampMs parentHeight newBlockTimestampMs newHeight targetBlockTimeMs tauMs).map
    bitsFromTarget

theorem clamped_upper_panics_iff (hi : U128) (multQ16 : Int) : clampedUpper hi multQ16 = none ↔ hi = 0 := by
  have bound := hi.isLt
  have lower : (wordMax (saturatingMul hi 100 / 108) 1).toNat = max (min (hi.toNat * 100) (2 ^ 128 - 1) / 108) 1 := by
    rw [to_nat_word_max, BitVec.toNat_udiv, to_nat_saturating_mul]
    rfl
  have upper : (saturatingMul hi 108 / 100).toNat = min (hi.toNat * 108) (2 ^ 128 - 1) / 100 := by
    rw [BitVec.toNat_udiv, to_nat_saturating_mul]
    rfl
  have zero : hi = 0 ↔ hi.toNat = 0 := ⟨fun empty => by rw [empty]; rfl, fun empty => BitVec.eq_of_toNat_eq empty⟩
  simp only [clampedUpper, checkedClamp]
  rw [lower, upper, zero]
  split
  · rename_i ordered
    simp only [reduceCtorEq, false_iff]
    omega
  · rename_i reversed
    simp only [true_iff]
    omega

theorem asert_target_panics_iff (anchorBits : U32) (anchorTimestampMs anchorHeight newBlockTimestampMs newBlockHeight
    targetBlockTimeMs tauMs : U64) :
    asertTarget anchorBits anchorTimestampMs anchorHeight newBlockTimestampMs newBlockHeight targetBlockTimeMs tauMs =
        none ↔
      ¬ (newBlockHeight ≤ anchorHeight ∨ tauMs = 0) ∧ upperHalf (targetFromBits anchorBits) = 0 := by
  unfold asertTarget
  by_cases early : newBlockHeight ≤ anchorHeight ∨ tauMs = 0
  · rw [if_pos early]
    simp only [early, not_true, false_and, reduceCtorEq]
  · rw [if_neg early]
    dsimp only
    rw [Option.map_eq_none_iff, clamped_upper_panics_iff]
    simp only [early, not_false_eq_true, true_and]

end PyGrove.Consensus
