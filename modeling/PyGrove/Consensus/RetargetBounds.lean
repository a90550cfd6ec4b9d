import PyGrove.Consensus.Retarget
import PyGrove.Consensus.TargetCodec

set_option autoImplicit false

namespace PyGrove.Consensus

open Words PyGrove.Core

def targetNat (target : Bytes 32) : Nat := ofBeBytes target.toList

theorem upper_half_nonzero (bits : U32) :
    upperHalf (targetFromBits bits) ≠ 0 ↔ targetValue bits / 2 ^ 128 ≠ 0 := by
  rw [← to_nat_target_from_bits, ← to_nat_upper_half, ne_eq, ← BitVec.toNat_inj]
  rfl

def movedUpper (hi : Nat) (growth : Int) : Nat :=
  max (max (min (hi * 100) (2 ^ 128 - 1) / 108) 1) (min (scaledUpper hi growth) (min (hi * 108) (2 ^ 128 - 1) / 100))

theorem retarget_value_moved (value : Nat) (growth : Int) :
    retargetValue value growth = movedUpper (value / 2 ^ 128) growth * 2 ^ 128 + value % 2 ^ 128 := rfl

theorem moved_bounds (hi : Nat) (growth : Int) (nonzero : hi ≠ 0) :
    max (min (hi * 100) (2 ^ 128 - 1) / 108) 1 ≤ movedUpper hi growth ∧
      movedUpper hi growth ≤ min (hi * 108) (2 ^ 128 - 1) / 100 := by
  rw [movedUpper]
  omega

theorem scaled_upper_le (hi : Nat) (growth : Int) : scaledUpper hi growth ≤ 2 ^ 112 - 1 := by
  simp only [scaledUpper]
  split <;> omega

theorem scaled_upper_mono (hi : Nat) (a b : Int) (le : a ≤ b) : scaledUpper hi a ≤ scaledUpper hi b := by
  simp only [scaledUpper]
  by_cases negative : a < 0
  · rw [if_pos negative]
    exact Nat.zero_le _
  · have product : hi * a.toNat ≤ hi * b.toNat := Nat.mul_le_mul_left hi (Int.toNat_le_toNat le)
    rw [if_neg negative, if_neg (by omega)]
    omega

theorem retarget_value_mono (value : Nat) (a b : Int) (le : a ≤ b) : retargetValue value a ≤ retargetValue value b := by
  have scaled := scaled_upper_mono (value / 2 ^ 128) a b le
  rw [retarget_value_moved, retarget_value_moved, movedUpper, movedUpper]
  omega

theorem growth_mono (a b : Int) (targetBlockTimeMs tauMs : Nat) (positive : 0 < tauMs) (le : a ≤ b) :
    growthQ16 a targetBlockTimeMs tauMs ≤ growthQ16 b targetBlockTimeMs tauMs := by
  have quotient : ((a - targetBlockTimeMs) * 2 ^ 16).tdiv tauMs ≤ ((b - targetBlockTimeMs) * 2 ^ 16).tdiv tauMs :=
    Int.tdiv_le_tdiv (by omega) (by omega)
  rw [growthQ16, growthQ16]
  omega

def nextTarget (parentBits : U32) (parentHeight parentTimestampMs newBlockTimestampMs targetBlockTimeMs tauMs : U64) : Nat :=
  if parentHeight = BitVec.allOnes 64 ∨ tauMs = 0 then targetValue parentBits
  else
    retargetValue (targetValue parentBits)
      (growthQ16 (newBlockTimestampMs.toNat - parentTimestampMs.toNat) targetBlockTimeMs.toNat tauMs.toNat)

theorem next_target_bounds (parentBits : U32) (parentHeight parentTimestampMs newBlockTimestampMs targetBlockTimeMs
    tauMs : U64) (nonzero : targetValue parentBits / 2 ^ 128 ≠ 0) :
    2 ^ 128 ≤ nextTarget parentBits parentHeight parentTimestampMs newBlockTimestampMs targetBlockTimeMs tauMs ∧
      nextTarget parentBits parentHeight parentTimestampMs newBlockTimestampMs targetBlockTimeMs tauMs < 2 ^ 255 := by
  have fits := target_value_lt parentBits
  simp only [nextTarget]
  split
  · omega
  · generalize growthQ16 _ _ _ = growth
    have bounds := moved_bounds (targetValue parentBits / 2 ^ 128) growth nonzero
    rw [retarget_value_moved]
    omega

theorem next_bits_rounds (parentBits : U32) (parentHeight parentTimestampMs newBlockTimestampMs targetBlockTimeMs
    bootstrapHeight bootstrapAsertTauMs asertTauMs : U64) (nonzero : targetValue parentBits / 2 ^ 128 ≠ 0) :
    ∃ bits, nextBitsFromParent parentBits parentHeight parentTimestampMs newBlockTimestampMs targetBlockTimeMs
        bootstrapHeight bootstrapAsertTauMs asertTauMs = some bits ∧
      CompactOf (nextTarget parentBits parentHeight parentTimestampMs newBlockTimestampMs targetBlockTimeMs
        (nextTauMs parentHeight bootstrapHeight bootstrapAsertTauMs asertTauMs)) bits ∧
      Compact.RoundsTo (nextTarget parentBits parentHeight parentTimestampMs newBlockTimestampMs targetBlockTimeMs
        (nextTauMs parentHeight bootstrapHeight bootstrapAsertTauMs asertTauMs)) (targetValue bits) := by
  generalize tau : nextTauMs parentHeight bootstrapHeight bootstrapAsertTauMs asertTauMs = tauMs
  have bounds := next_target_bounds parentBits parentHeight parentTimestampMs newBlockTimestampMs targetBlockTimeMs tauMs nonzero
  have produced : ∃ bits, nextBitsFromParent parentBits parentHeight parentTimestampMs newBlockTimestampMs
      targetBlockTimeMs bootstrapHeight bootstrapAsertTauMs asertTauMs = some bits := by
    cases next : nextBitsFromParent parentBits parentHeight parentTimestampMs newBlockTimestampMs targetBlockTimeMs
        bootstrapHeight bootstrapAsertTauMs asertTauMs with
    | some bits => exact ⟨bits, rfl⟩
    | none =>
        rw [nextBitsFromParent, Option.map_eq_none_iff] at next
        exact absurd ((asert_target_panics_iff ..).mp next).2 ((upper_half_nonzero parentBits).mpr nonzero)
  obtain ⟨bits, next⟩ := produced
  have retargets := (next_bits_iff ..).mp next
  rw [tau] at retargets
  have compact : CompactOf (nextTarget parentBits parentHeight parentTimestampMs newBlockTimestampMs targetBlockTimeMs tauMs)
      bits := by
    rw [nextTarget]
    rcases retargets with ⟨early, compact⟩ | ⟨grows, positive, _, compact⟩
    · rwa [if_pos early]
    · rwa [if_neg (not_or.mpr ⟨grows, positive⟩)]
  exact ⟨bits, next, compact, decoded_rounds _ bits compact (by omega) bounds.2⟩

theorem difficulty_mono (parentBits : U32) (parentHeight parentTimestampMs earlierMs laterMs targetBlockTimeMs
    bootstrapHeight bootstrapAsertTauMs asertTauMs : U64) (nonzero : upperHalf (targetFromBits parentBits) ≠ 0)
    (ordered : earlierMs ≤ laterMs) :
    ∃ earlierBits laterBits,
      nextBitsFromParent parentBits parentHeight parentTimestampMs earlierMs targetBlockTimeMs bootstrapHeight
        bootstrapAsertTauMs asertTauMs = some earlierBits ∧
      nextBitsFromParent parentBits parentHeight parentTimestampMs laterMs targetBlockTimeMs bootstrapHeight
        bootstrapAsertTauMs asertTauMs = some laterBits ∧
      targetNat (targetFromBits earlierBits) ≤ targetNat (targetFromBits laterBits) := by
  rw [upper_half_nonzero] at nonzero
  obtain ⟨earlierBits, earlier, _, earlierRounds⟩ := next_bits_rounds parentBits parentHeight parentTimestampMs earlierMs
    targetBlockTimeMs bootstrapHeight bootstrapAsertTauMs asertTauMs nonzero
  obtain ⟨laterBits, later, _, laterRounds⟩ := next_bits_rounds parentBits parentHeight parentTimestampMs laterMs
    targetBlockTimeMs bootstrapHeight bootstrapAsertTauMs asertTauMs nonzero
  refine ⟨earlierBits, laterBits, earlier, later, ?_⟩
  rw [targetNat, targetNat, to_nat_target_from_bits, to_nat_target_from_bits]
  refine Compact.rounds_mono _ _ _ _ ?_ earlierRounds laterRounds
  generalize nextTauMs parentHeight bootstrapHeight bootstrapAsertTauMs asertTauMs = tauMs
  simp only [nextTarget]
  by_cases early : parentHeight = BitVec.allOnes 64 ∨ tauMs = 0
  · rw [if_pos early, if_pos early]
  · obtain ⟨_, positive⟩ := not_or.mp early
    rw [if_neg early, if_neg early]
    apply retarget_value_mono
    rw [BitVec.le_def] at ordered
    exact growth_mono _ _ _ _ (to_nat_pos tauMs positive) (by omega)

theorem earlier_claim_not_easier :
    ∃ earlierBits laterBits,
      nextBitsFromParent 0x1f00ffff 100 1000000000000 1000000300000 600000 1000 3600000 172800000 = some earlierBits ∧
      nextBitsFromParent 0x1f00ffff 100 1000000000000 1000001200000 600000 1000 3600000 172800000 = some laterBits ∧
      targetNat (targetFromBits earlierBits) ≤ targetNat (targetFromBits laterBits) :=
  difficulty_mono 0x1f00ffff 100 1000000000000 1000000300000 1000001200000 600000 1000 3600000 172800000
    (by decide +kernel) (by decide)

structure RetargetParams where
  targetBlockTimeMs : U64
  bootstrapHeight : U64
  bootstrapAsertTauMs : U64
  asertTauMs : U64
deriving DecidableEq

structure RetargetTip where
  bits : U32
  height : U64
  timestampMs : U64
deriving DecidableEq

def nextTip (p : RetargetParams) (tip : RetargetTip) (timestampMs : U64) : Option RetargetTip :=
  (nextBitsFromParent tip.bits tip.height tip.timestampMs timestampMs p.targetBlockTimeMs p.bootstrapHeight
    p.bootstrapAsertTauMs p.asertTauMs).map fun bits => ⟨bits, tip.height + 1, timestampMs⟩

def retargetRun (p : RetargetParams) : RetargetTip → List U64 → Option (List RetargetTip)
  | _, [] => some []
  | tip, timestampMs :: tail =>
      match nextTip p tip timestampMs with
      | none => none
      | some next => (retargetRun p next tail).map (next :: ·)

def ValidBits (bits : U32) : Prop :=
  1 ≤ (bits >>> 24).toNat ∧ (bits >>> 24).toNat ≤ 32 ∧ upperHalf (targetFromBits bits) ≠ 0

theorem next_tip_valid (p : RetargetParams) (tip : RetargetTip) (timestampMs : U64)
    (nonzero : upperHalf (targetFromBits tip.bits) ≠ 0) :
    ∃ next, nextTip p tip timestampMs = some next ∧ ValidBits next.bits := by
  rw [upper_half_nonzero] at nonzero
  obtain ⟨bits, produced, compact, rounds⟩ := next_bits_rounds tip.bits tip.height tip.timestampMs timestampMs
    p.targetBlockTimeMs p.bootstrapHeight p.bootstrapAsertTauMs p.asertTauMs nonzero
  have bounds := next_target_bounds tip.bits tip.height tip.timestampMs timestampMs p.targetBlockTimeMs
    (nextTauMs tip.height p.bootstrapHeight p.bootstrapAsertTauMs p.asertTauMs) nonzero
  obtain ⟨used, span⟩ := compact_exponent _ _ _ (compact_represents _ bits compact (by omega))
  have exponent : (bits >>> 24).toNat = bits.toNat / 2 ^ 24 := by
    rw [BitVec.toNat_ushiftRight, Nat.shiftRight_eq_div_pow]
  have least : Compact.RoundsTo (2 ^ 128) (2 ^ 128) :=
    Compact.rounds_exact (2 ^ 128) 17 (2 ^ 16) (by decide) (by decide) (by decide)
  have kept := Compact.rounds_mono _ _ _ _ bounds.1 least rounds
  refine ⟨⟨bits, tip.height + 1, timestampMs⟩, by rw [nextTip, produced, Option.map_some], ?_, ?_, ?_⟩
  · rw [exponent]
    exact Nat.one_le_iff_ne_zero.mpr used
  · rw [exponent]
    exact span.mp bounds.2
  · rw [upper_half_nonzero]
    dsimp only
    omega

theorem difficulty_stays_valid (p : RetargetParams) (tip : RetargetTip) (timestamps : List U64)
    (nonzero : upperHalf (targetFromBits tip.bits) ≠ 0) :
    ∃ tips, retargetRun p tip timestamps = some tips ∧ tips.map RetargetTip.timestampMs = timestamps ∧
      ∀ next ∈ tips, ValidBits next.bits := by
  induction timestamps generalizing tip with
  | nil => exact ⟨[], rfl, rfl, by simp⟩
  | cons timestampMs tail ih =>
      obtain ⟨next, produced, valid⟩ := next_tip_valid p tip timestampMs nonzero
      obtain ⟨tips, rest, times, allValid⟩ := ih next valid.2.2
      have time : next.timestampMs = timestampMs := by
        rw [nextTip, Option.map_eq_some_iff] at produced
        obtain ⟨bits, _, rfl⟩ := produced
        rfl
      refine ⟨next :: tips, ?_, ?_, List.forall_mem_cons.mpr ⟨valid, allValid⟩⟩
      · rw [retargetRun, produced]
        dsimp only
        rw [rest, Option.map_some]
      · rw [List.map_cons, time, times]

theorem backdated_blocks_stay_valid :
    ∃ tips, retargetRun ⟨600000, 1000, 3600000, 172800000⟩ ⟨0x1f00ffff, 0, 1778716820000⟩ [0, 1778716820000, 0] = some tips ∧
      tips.map RetargetTip.timestampMs = [0, 1778716820000, 0] ∧ ∀ next ∈ tips, ValidBits next.bits :=
  difficulty_stays_valid ⟨600000, 1000, 3600000, 172800000⟩ ⟨0x1f00ffff, 0, 1778716820000⟩ [0, 1778716820000, 0]
    (by decide +kernel)

end PyGrove.Consensus
