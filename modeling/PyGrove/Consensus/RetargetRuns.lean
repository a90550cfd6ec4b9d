import PyGrove.Consensus.RetargetClamp

set_option autoImplicit false

namespace PyGrove.Consensus

open Words PyGrove.Core

theorem next_target_eases (parentBits : U32) (parentHeight parentTimestampMs newBlockTimestampMs targetBlockTimeMs
    tauMs : U64) (nonzero : targetValue parentBits / 2 ^ 128 ≠ 0) :
    nextTarget parentBits parentHeight parentTimestampMs newBlockTimestampMs targetBlockTimeMs tauMs * 100 ≤
      targetValue parentBits * 108 := by
  simp only [nextTarget]
  split
  · omega
  · generalize growthQ16 _ _ _ = growth
    have moved := moved_le (targetValue parentBits / 2 ^ 128) growth nonzero
    rw [retarget_value_moved]
    omega

theorem next_tip_eases (p : RetargetParams) (tip next : RetargetTip) (timestampMs : U64)
    (nonzero : upperHalf (targetFromBits tip.bits) ≠ 0) (produced : nextTip p tip timestampMs = some next) :
    targetNat (targetFromBits next.bits) * 100 ≤ targetNat (targetFromBits tip.bits) * 108 := by
  rw [upper_half_nonzero] at nonzero
  obtain ⟨bits, made, _, rounds⟩ := next_bits_rounds tip.bits tip.height tip.timestampMs timestampMs
    p.targetBlockTimeMs p.bootstrapHeight p.bootstrapAsertTauMs p.asertTauMs nonzero
  rw [nextTip, made, Option.map_some, Option.some.injEq] at produced
  subst produced
  have eased := next_target_eases tip.bits tip.height tip.timestampMs timestampMs p.targetBlockTimeMs
    (nextTauMs tip.height p.bootstrapHeight p.bootstrapAsertTauMs p.asertTauMs) nonzero
  rw [targetNat, targetNat, to_nat_target_from_bits, to_nat_target_from_bits]
  exact (Nat.mul_le_mul_right 100 (Compact.rounds_le _ _ rounds)).trans eased

end PyGrove.Consensus
