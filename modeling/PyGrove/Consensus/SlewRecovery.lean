import PyGrove.Consensus.EmissionRuns

set_option autoImplicit false

namespace PyGrove.Consensus

open Words Steps

def OwedMore (p : EmissionParams) (genesisTimeMs : U64) (s : MintState) (timestampMs : U64) (prev : U128) : Prop :=
  s.prevRewardSat = some prev ∧ 0 < prev ∧ genesisTimeMs < timestampMs ∧
    prev < cappedReward p genesisTimeMs timestampMs s.parentTimestampMs s.mintedSoFarSat s.height

def ClimbsBack (p : EmissionParams) (genesisTimeMs : U64) (s : MintState) (timestampMs : U64) : Prop :=
  ∀ prev, OwedMore p genesisTimeMs s timestampMs prev → prev < (mintBlock p genesisTimeMs s timestampMs).2

-- A quarter of four is the first that the truncated percentage does not lose.
def RoomToClimb (p : EmissionParams) (genesisTimeMs : U64) (s : MintState) (timestampMs : U64) : Prop :=
  ∀ prev, OwedMore p genesisTimeMs s timestampMs prev → 4 ≤ prev

theorem to_nat_slew_up (prev : U128) (bounded : prev.toNat ≤ 5000000000) :
    (slewUp .bitcoinLike prev).toNat = prev.toNat * 125 / 100 := by
  have pct : (100 + slewPct .bitcoinLike).toNat = 125 := by decide
  rw [slewUp, BitVec.toNat_udiv, to_nat_saturating_mul, pct, Nat.min_eq_left (by omega)]
  rfl

theorem epoch_reward_le_initial (p : EmissionParams) (tMs : U64) : (epochReward p tMs).toNat ≤ p.initialRewardSat.toNat := by
  simp only [epochReward]
  split
  · exact Nat.zero_le _
  · rw [BitVec.toNat_ushiftRight, Nat.shiftRight_eq_div_pow]
    exact Nat.div_le_self _ _

theorem climbs_iff_four (genesisTimeMs : U64) (s : MintState) (timestampMs : U64) (prev : U128)
    (owed : OwedMore .bitcoinLike genesisTimeMs s timestampMs prev) :
    prev < (mintBlock .bitcoinLike genesisTimeMs s timestampMs).2 ↔ 4 ≤ prev := by
  obtain ⟨known, positive, started, more⟩ := owed
  rw [BitVec.lt_def] at more
  obtain ⟨_, epoch, _⟩ := (le_capped_reward_iff ..).mp (Nat.le_refl (cappedReward .bitcoinLike genesisTimeMs timestampMs
    s.parentTimestampMs s.mintedSoFarSat s.height).toNat)
  have initial := epoch_reward_le_initial .bitcoinLike (timestampMs - genesisTimeMs)
  have shipped : EmissionParams.bitcoinLike.initialRewardSat.toNat = 5000000000 := by decide
  have up := to_nat_slew_up prev (by omega)
  have down := to_nat_slew_down prev
  have ordered := slew_ordered .bitcoinLike prev
  have paid : (mintBlock .bitcoinLike genesisTimeMs s timestampMs).2.toNat = max (slewDown .bitcoinLike prev).toNat
      (min (cappedReward .bitcoinLike genesisTimeMs timestampMs s.parentTimestampMs s.mintedSoFarSat s.height).toNat
        (slewUp .bitcoinLike prev).toNat) := by
    simp only [mintBlock, currentRewardWithHeight]
    rw [if_neg (BitVec.not_le.mpr started), known, slewLimit]
    rw [if_pos positive, to_nat_word_clamp _ _ _ ordered]
  rw [BitVec.lt_def, BitVec.le_def, paid, up, show (4 : U128).toNat = 4 from rfl]
  omega

theorem climbs_back_iff (genesisTimeMs : U64) (timestamps : List U64) :
    Along (mintBlock .bitcoinLike genesisTimeMs) (ClimbsBack .bitcoinLike genesisTimeMs) (.start genesisTimeMs) timestamps ↔
      Along (mintBlock .bitcoinLike genesisTimeMs) (RoomToClimb .bitcoinLike genesisTimeMs) (.start genesisTimeMs)
        timestamps := by
  constructor
  · refine along_mono _ _ _ _ _ fun s timestampMs _ climbs prev owed => ?_
    exact (climbs_iff_four genesisTimeMs s timestampMs prev owed).mp (climbs prev owed)
  · refine along_mono _ _ _ _ _ fun s timestampMs _ room prev owed => ?_
    exact (climbs_iff_four genesisTimeMs s timestampMs prev owed).mpr (room prev owed)

-- Seventy blocks in the millisecond of block 1 bring the reward down to 3 sat,
-- a quarter less each. Ninety minutes later 2500000000 sat are owed, and 3 paid.
def burstTimestamps : List U64 := [1778716820000, 1778717420000] ++ List.replicate 70 1778717420000

theorem burst_traps_reward :
    (burstTimestamps ++ [1778722820000]).IsChain (· ≤ ·) ∧
      ¬ Along (mintBlock .bitcoinLike 1778716820000) (ClimbsBack .bitcoinLike 1778716820000) (.start 1778716820000)
        (burstTimestamps ++ [1778722820000]) := by
  refine ⟨by decide +kernel, ?_⟩
  intro along
  have reached : runCalls (mintBlock .bitcoinLike 1778716820000) (.start 1778716820000) burstTimestamps =
      ⟨72, 1778717420000, 9999999893, some 3⟩ := by decide +kernel
  obtain ⟨climbs, _⟩ := ((along_append ..).mp along).2
  rw [reached] at climbs
  have owed : OwedMore .bitcoinLike 1778716820000 ⟨72, 1778717420000, 9999999893, some 3⟩ 1778722820000 3 :=
    ⟨rfl, by decide, by decide, by decide +kernel⟩
  exact absurd (climbs 3 owed) (by decide +kernel)

end PyGrove.Consensus
