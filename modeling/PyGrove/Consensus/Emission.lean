import PyGrove.Lib.Words

set_option autoImplicit false

namespace PyGrove.Consensus

open Words

structure EmissionParams where
  initialRewardSat : U128
  secondsPerHalving : U64
  targetBlockTimeMs : U64
  supplyCapSat : U128
  maxRewardPctChangePerBlock : U32
  bootstrapHeight : U64
  bootstrapRewardPct : U32
deriving DecidableEq

def EmissionParams.bitcoinLike : EmissionParams where
  initialRewardSat := 5000000000
  secondsPerHalving := 210000 * 600
  targetBlockTimeMs := 600000
  supplyCapSat := 21000000 * 100000000
  maxRewardPctChangePerBlock := 25
  bootstrapHeight := 2016
  bootstrapRewardPct := 50

def EmissionParams.halvingMs (p : EmissionParams) : U128 := p.secondsPerHalving.setWidth 128 * 1000

def scheduleLoop (blocksPerHalving : U128) : Nat → U128 × U128 → U128 × U128
  | 0, reached => reached
  | n + 1, (cumulative, currentReward) =>
      scheduleLoop blocksPerHalving n
        (saturatingAdd cumulative (saturatingMul currentReward blocksPerHalving), currentReward >>> 1)

def scheduledSupplyAt (tMsSinceGenesis : U64) (p : EmissionParams) : U128 :=
  if tMsSinceGenesis = 0 then 0
  else if p.halvingMs = 0 ∨ p.targetBlockTimeMs.setWidth 128 = (0 : U128) then 0
  else
    let blocksPerHalving := p.halvingMs / p.targetBlockTimeMs.setWidth 128
    let tMs : U128 := tMsSinceGenesis.setWidth 128
    let epoch := tMs / p.halvingMs
    if 64 ≤ epoch then p.supplyCapSat
    else
      let (cumulative, currentReward) := scheduleLoop blocksPerHalving epoch.toNat (0, p.initialRewardSat)
      let elapsedInEpoch := tMs - epoch * p.halvingMs
      let partialBlocks := saturatingMul elapsedInEpoch blocksPerHalving / p.halvingMs
      wordMin (saturatingAdd cumulative (saturatingMul currentReward partialBlocks)) p.supplyCapSat

def epochReward (p : EmissionParams) (tMs : U64) : U128 :=
  let epoch : U128 := tMs.setWidth 128 / wordMax p.halvingMs 1
  if 64 ≤ epoch then 0 else p.initialRewardSat >>> epoch.toNat

def calendarRemaining (p : EmissionParams) (tMs : U64) (mintedSoFarSat : U128) : U128 :=
  saturatingSub (scheduledSupplyAt tMs p) mintedSoFarSat

def proportionalCap (p : EmissionParams) (tMs blockTimestampMs parentTimestampMs : U64) : U128 :=
  let elapsedMs := saturatingSub blockTimestampMs parentTimestampMs
  saturatingMul (epochReward p tMs) ((wordMax elapsedMs 1).setWidth 128) /
    wordMax (p.targetBlockTimeMs.setWidth 128) 1

def bootstrapCap (p : EmissionParams) (tMs : U64) : U128 :=
  saturatingMul (epochReward p tMs) (p.bootstrapRewardPct.setWidth 128) / 100

def cappedReward (p : EmissionParams) (genesisTimeMs blockTimestampMs parentTimestampMs : U64)
    (mintedSoFarSat : U128) (blockHeight : U64) : U128 :=
  let tMs := blockTimestampMs - genesisTimeMs
  let reward := wordMin (wordMin (calendarRemaining p tMs mintedSoFarSat) (epochReward p tMs))
    (proportionalCap p tMs blockTimestampMs parentTimestampMs)
  if blockHeight < p.bootstrapHeight then wordMin reward (bootstrapCap p tMs) else reward

def slewPct (p : EmissionParams) : U128 := (wordMax p.maxRewardPctChangePerBlock 1).setWidth 128
def slewUp (p : EmissionParams) (prev : U128) : U128 := saturatingMul prev (100 + slewPct p) / 100
def slewDown (p : EmissionParams) (prev : U128) : U128 := saturatingMul prev (saturatingSub 100 (slewPct p)) / 100

def slewLimit (p : EmissionParams) (prevBlockReward : Option U128) (reward : U128) : U128 :=
  match prevBlockReward with
  | none => reward
  | some prev => if 0 < prev then wordClamp reward (slewDown p prev) (slewUp p prev) else reward

def currentRewardWithHeight (p : EmissionParams) (genesisTimeMs blockTimestampMs parentTimestampMs : U64)
    (mintedSoFarSat : U128) (blockHeight : U64) (prevBlockReward : Option U128) : U128 :=
  if blockTimestampMs ≤ genesisTimeMs then 0
  else
    slewLimit p prevBlockReward
      (cappedReward p genesisTimeMs blockTimestampMs parentTimestampMs mintedSoFarSat blockHeight)

theorem slew_ordered (p : EmissionParams) (prev : U128) : (slewDown p prev).toNat ≤ (slewUp p prev).toNat := by
  have pct : (saturatingSub 100 (slewPct p)).toNat ≤ (100 + slewPct p).toNat := by
    have small : (slewPct p).toNat < 2 ^ 32 := by
      rw [slewPct, BitVec.toNat_setWidth, Nat.mod_eq_of_lt (by have := (wordMax p.maxRewardPctChangePerBlock 1).isLt; omega)]
      exact (wordMax p.maxRewardPctChangePerBlock 1).isLt
    rw [to_nat_saturating_sub, BitVec.toNat_add, show (100 : U128).toNat = 100 from rfl, Nat.mod_eq_of_lt (by omega)]
    omega
  rw [slewDown, slewUp, BitVec.toNat_udiv, BitVec.toNat_udiv, to_nat_saturating_mul, to_nat_saturating_mul]
  apply Nat.div_le_div_right
  have products := Nat.mul_le_mul_left prev.toNat pct
  omega

theorem slew_limit_le_iff (p : EmissionParams) (prev : Option U128) (reward : U128) :
    (slewLimit p prev reward).toNat ≤ reward.toNat ↔
      ∀ last, prev = some last → (slewDown p last).toNat ≤ reward.toNat := by
  cases prev with
  | none => simp [slewLimit]
  | some last =>
      have ordered := slew_ordered p last
      have zero : ¬ 0 < last → (slewDown p last).toNat = 0 := by
        intro notPositive
        have empty : last.toNat = 0 := by simpa [BitVec.lt_def] using notPositive
        rw [slewDown, BitVec.toNat_udiv, to_nat_saturating_mul, empty]
        simp
      simp only [slewLimit]
      by_cases positive : 0 < last
      · simp only [if_pos positive, to_nat_word_clamp _ _ _ ordered, Option.some.injEq, forall_eq']
        omega
      · simp only [if_neg positive, Option.some.injEq, forall_eq', zero positive]
        omega

theorem slew_limit_floor (p : EmissionParams) (prev : Option U128) (reward : U128)
    (lifted : ¬ (slewLimit p prev reward).toNat ≤ reward.toNat) :
    ∃ last, prev = some last ∧ (slewLimit p prev reward).toNat = (slewDown p last).toNat := by
  cases prev with
  | none => exact absurd (Nat.le_refl _) lifted
  | some last =>
      have ordered := slew_ordered p last
      refine ⟨last, rfl, ?_⟩
      dsimp only [slewLimit] at lifted ⊢
      by_cases positive : 0 < last
      · rw [if_pos positive, to_nat_word_clamp _ _ _ ordered] at lifted ⊢
        omega
      · rw [if_neg positive] at lifted
        exact absurd (Nat.le_refl _) lifted

theorem le_capped_reward_iff (p : EmissionParams) (genesisTimeMs blockTimestampMs parentTimestampMs : U64)
    (mintedSoFarSat : U128) (blockHeight : U64) (amount : ℕ) :
    amount ≤ (cappedReward p genesisTimeMs blockTimestampMs parentTimestampMs mintedSoFarSat blockHeight).toNat ↔
      amount ≤ (calendarRemaining p (blockTimestampMs - genesisTimeMs) mintedSoFarSat).toNat ∧
        amount ≤ (epochReward p (blockTimestampMs - genesisTimeMs)).toNat ∧
        amount ≤ (proportionalCap p (blockTimestampMs - genesisTimeMs) blockTimestampMs parentTimestampMs).toNat ∧
        (blockHeight < p.bootstrapHeight → amount ≤ (bootstrapCap p (blockTimestampMs - genesisTimeMs)).toNat) := by
  simp only [cappedReward]
  by_cases bootstrap : blockHeight < p.bootstrapHeight
  · rw [if_pos bootstrap, to_nat_word_min, to_nat_word_min, to_nat_word_min]
    simp only [bootstrap, true_implies]
    omega
  · rw [if_neg bootstrap, to_nat_word_min, to_nat_word_min]
    simp only [bootstrap, false_implies, and_true]
    omega

end PyGrove.Consensus
