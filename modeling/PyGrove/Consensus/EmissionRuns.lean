import Mathlib.Data.List.Chain
import PyGrove.Lib.Steps
import PyGrove.Consensus.ScheduledSupply

set_option autoImplicit false

namespace PyGrove.Consensus

open Words Steps Halving

def shippedSchedule : Halving.Schedule where
  reward := 5000000000
  blocks := 210000
  length := 126000000000
  started := by decide
  paid := by decide

def supplyCap : ℕ := 21000000 * 100000000

theorem bitcoin_like_halving_ms : EmissionParams.bitcoinLike.halvingMs.toNat = 126000000000 := by decide

theorem bitcoin_like_paid : 0 < EmissionParams.bitcoinLike.blocksPerHalving.toNat := by decide

theorem bitcoin_like_schedule : EmissionParams.bitcoinLike.schedule bitcoin_like_paid = shippedSchedule := by
  rw [EmissionParams.schedule, shippedSchedule, Halving.Schedule.mk.injEq]
  decide

theorem to_nat_scheduled_supply (tMs : U64) :
    (scheduledSupplyAt tMs .bitcoinLike).toNat =
      if 64 ≤ tMs.toNat / 126000000000 then supplyCap else supply shippedSchedule tMs.toNat := by
  have within := Nat.mod_lt tMs.toNat (show 0 < 126000000000 by decide)
  have exact := limited_supply_eq shippedSchedule (2 ^ 128 - 1) tMs.toNat
    (by rw [show shippedSchedule.length = 126000000000 from rfl, show shippedSchedule.blocks = 210000 from rfl]; omega)
  have capped := supply_add_rewards shippedSchedule tMs.toNat 0 (by decide)
  rw [Nat.zero_mul, Nat.add_zero] at capped
  have cap : EmissionParams.bitcoinLike.supplyCapSat.toNat = 2 * (shippedSchedule.reward * shippedSchedule.blocks) := by decide
  rw [scheduled_supply_value _ tMs bitcoin_like_paid, bitcoin_like_schedule, bitcoin_like_halving_ms, exact, cap,
    Nat.min_eq_left capped]
  rfl

theorem scheduled_supply_mono (a b : U64) (le : a.toNat ≤ b.toNat) :
    (scheduledSupplyAt a .bitcoinLike).toNat ≤ (scheduledSupplyAt b .bitcoinLike).toNat :=
  schedule_mono .bitcoinLike a b (BitVec.le_def.mpr le)

theorem to_nat_epoch_reward (tMs : U64) :
    (epochReward .bitcoinLike tMs).toNat =
      if 64 ≤ tMs.toNat / 126000000000 then 0 else Halving.epochReward shippedSchedule (tMs.toNat / 126000000000) := by
  have epoch := to_nat_epoch_at .bitcoinLike tMs
  rw [bitcoin_like_halving_ms] at epoch
  have nonzero : wordMax EmissionParams.bitcoinLike.halvingMs 1 = EmissionParams.bitcoinLike.halvingMs := by decide
  unfold epochReward
  rw [nonzero]
  dsimp only
  by_cases far : 64 ≤ tMs.toNat / 126000000000
  · rw [if_pos (by rw [BitVec.le_def, epoch]; exact far), if_pos far]
    rfl
  · rw [if_neg (by rw [BitVec.le_def, epoch]; exact far), if_neg far, epoch, BitVec.toNat_ushiftRight,
      Nat.shiftRight_eq_div_pow]
    rfl

theorem scheduled_supply_add_rewards (tMs : U64) :
    (scheduledSupplyAt tMs .bitcoinLike).toNat + 3 * (epochReward .bitcoinLike tMs).toNat ≤ supplyCap := by
  have room := supply_add_rewards shippedSchedule tMs.toNat 3 (by decide)
  have cap : 2 * (shippedSchedule.reward * shippedSchedule.blocks) = supplyCap := rfl
  have epoch : tMs.toNat / shippedSchedule.length = tMs.toNat / 126000000000 := rfl
  rw [to_nat_scheduled_supply, to_nat_epoch_reward]
  split
  · omega
  · rw [epoch] at room
    omega

theorem to_nat_slew_down (prev : U128) : 4 * (slewDown .bitcoinLike prev).toNat ≤ 3 * prev.toNat := by
  have floor : (saturatingSub 100 (slewPct .bitcoinLike)).toNat = 75 := by decide
  rw [slewDown, BitVec.toNat_udiv, to_nat_saturating_mul, floor, show (100 : U128).toNat = 100 from rfl]
  omega

structure MintState where
  height : U64
  parentTimestampMs : U64
  mintedSoFarSat : U128
  prevRewardSat : Option U128
deriving DecidableEq

def MintState.start (genesisTimeMs : U64) : MintState := ⟨0, genesisTimeMs, 0, none⟩

def mintBlock (p : EmissionParams) (genesisTimeMs : U64) (s : MintState) (timestampMs : U64) : MintState × U128 :=
  let reward := currentRewardWithHeight p genesisTimeMs timestampMs s.parentTimestampMs s.mintedSoFarSat s.height
    s.prevRewardSat
  ({ height := s.height + 1
     parentTimestampMs := timestampMs
     mintedSoFarSat := saturatingAdd s.mintedSoFarSat reward
     prevRewardSat := some reward }, reward)

@[simp] theorem mint_block_minted (p : EmissionParams) (genesisTimeMs : U64) (s : MintState) (timestampMs : U64) :
    (mintBlock p genesisTimeMs s timestampMs).1.mintedSoFarSat =
      saturatingAdd s.mintedSoFarSat (mintBlock p genesisTimeMs s timestampMs).2 := rfl

@[simp] theorem mint_block_prev_reward (p : EmissionParams) (genesisTimeMs : U64) (s : MintState) (timestampMs : U64) :
    (mintBlock p genesisTimeMs s timestampMs).1.prevRewardSat = some (mintBlock p genesisTimeMs s timestampMs).2 := rfl

def rewards (p : EmissionParams) (genesisTimeMs : U64) : MintState → List U64 → List U128
  | _, [] => []
  | s, timestampMs :: tail =>
      (mintBlock p genesisTimeMs s timestampMs).2 :: rewards p genesisTimeMs (mintBlock p genesisTimeMs s timestampMs).1 tail

-- Everything minted, with the tail of rewards that the slew limit forces out
-- even when nothing is owed: each is at most three quarters of the last.
def MintState.potential (s : MintState) : ℕ :=
  s.mintedSoFarSat.toNat + 3 * (s.prevRewardSat.map BitVec.toNat).getD 0

theorem mint_potential (genesisTimeMs : U64) (s : MintState) (timestampMs : U64) (bounded : s.potential ≤ supplyCap) :
    s.mintedSoFarSat.toNat + 4 * (mintBlock .bitcoinLike genesisTimeMs s timestampMs).2.toNat ≤ supplyCap := by
  unfold mintBlock currentRewardWithHeight
  dsimp only
  simp only [MintState.potential] at bounded
  split
  · rw [show (0 : U128).toNat = 0 from rfl]
    omega
  · generalize capped : cappedReward .bitcoinLike genesisTimeMs timestampMs s.parentTimestampMs s.mintedSoFarSat s.height = reward
    by_cases below : (slewLimit .bitcoinLike s.prevRewardSat reward).toNat ≤ reward.toNat
    · rw [← capped] at below
      obtain ⟨calendar, epoch, _⟩ := (le_capped_reward_iff ..).mp below
      rw [capped] at calendar epoch
      have room := scheduled_supply_add_rewards (timestampMs - genesisTimeMs)
      rw [calendarRemaining, to_nat_saturating_sub] at calendar
      omega
    · obtain ⟨last, known, floor⟩ := slew_limit_floor _ _ _ below
      have decay := to_nat_slew_down last
      rw [known] at bounded
      rw [Option.map_some, Option.getD_some] at bounded
      omega

theorem mint_block_potential (genesisTimeMs : U64) (s : MintState) (timestampMs : U64) (bounded : s.potential ≤ supplyCap) :
    (mintBlock .bitcoinLike genesisTimeMs s timestampMs).1.potential ≤ supplyCap ∧
      (mintBlock .bitcoinLike genesisTimeMs s timestampMs).1.mintedSoFarSat.toNat =
        s.mintedSoFarSat.toNat + (mintBlock .bitcoinLike genesisTimeMs s timestampMs).2.toNat := by
  have step := mint_potential genesisTimeMs s timestampMs bounded
  have cap : supplyCap < 2 ^ 128 - 1 := by decide
  have minted : (mintBlock .bitcoinLike genesisTimeMs s timestampMs).1.mintedSoFarSat.toNat =
      s.mintedSoFarSat.toNat + (mintBlock .bitcoinLike genesisTimeMs s timestampMs).2.toNat := by
    rw [mint_block_minted, to_nat_saturating_add]
    omega
  refine ⟨?_, minted⟩
  rw [MintState.potential, minted, mint_block_prev_reward, Option.map_some, Option.getD_some]
  omega

theorem minted_from (genesisTimeMs : U64) (s : MintState) (timestamps : List U64) (bounded : s.potential ≤ supplyCap) :
    s.mintedSoFarSat.toNat + ((rewards .bitcoinLike genesisTimeMs s timestamps).map BitVec.toNat).sum ≤ supplyCap ∧
      (runCalls (mintBlock .bitcoinLike genesisTimeMs) s timestamps).mintedSoFarSat.toNat =
        s.mintedSoFarSat.toNat + ((rewards .bitcoinLike genesisTimeMs s timestamps).map BitVec.toNat).sum := by
  induction timestamps generalizing s with
  | nil =>
      rw [rewards, List.map_nil, List.sum_nil]
      exact ⟨Nat.le_trans (Nat.le_add_right _ _) bounded, rfl⟩
  | cons timestampMs tail ih =>
      obtain ⟨next, minted⟩ := mint_block_potential genesisTimeMs s timestampMs bounded
      obtain ⟨capped, total⟩ := ih _ next
      rw [rewards, List.map_cons, List.sum_cons]
      rw [minted] at capped total
      refine ⟨by omega, ?_⟩
      rw [runCalls, List.foldl_cons]
      rw [runCalls] at total
      rw [total]
      omega

theorem minted_within_cap (genesisTimeMs : U64) (timestamps : List U64) :
    ((rewards .bitcoinLike genesisTimeMs (.start genesisTimeMs) timestamps).map BitVec.toNat).sum ≤ supplyCap ∧
      (runCalls (mintBlock .bitcoinLike genesisTimeMs) (.start genesisTimeMs) timestamps).mintedSoFarSat.toNat =
        ((rewards .bitcoinLike genesisTimeMs (.start genesisTimeMs) timestamps).map BitVec.toNat).sum := by
  have start : (MintState.start genesisTimeMs).mintedSoFarSat.toNat = 0 := rfl
  have minted := minted_from genesisTimeMs (.start genesisTimeMs) timestamps (Nat.zero_le _)
  rwa [start, Nat.zero_add] at minted

def WithinCaps (p : EmissionParams) (genesisTimeMs : U64) (s : MintState) (timestampMs : U64) : Prop :=
  let tMs := timestampMs - genesisTimeMs
  let reward := (mintBlock p genesisTimeMs s timestampMs).2
  reward.toNat ≤ (calendarRemaining p tMs s.mintedSoFarSat).toNat ∧ reward.toNat ≤ (epochReward p tMs).toNat ∧
    reward.toNat ≤ (proportionalCap p tMs timestampMs s.parentTimestampMs).toNat ∧
    (s.height < p.bootstrapHeight → reward.toNat ≤ (bootstrapCap p tMs).toNat)

def WithinSchedule (p : EmissionParams) (genesisTimeMs : U64) (s : MintState) (timestampMs : U64) : Prop :=
  (mintBlock p genesisTimeMs s timestampMs).1.mintedSoFarSat.toNat ≤
    (scheduledSupplyAt (timestampMs - genesisTimeMs) p).toNat

def FloorBelowCaps (p : EmissionParams) (genesisTimeMs : U64) (s : MintState) (timestampMs : U64) : Prop :=
  genesisTimeMs < timestampMs → ∀ last, s.prevRewardSat = some last →
    (slewDown p last).toNat ≤
      (cappedReward p genesisTimeMs timestampMs s.parentTimestampMs s.mintedSoFarSat s.height).toNat

theorem within_caps_iff (p : EmissionParams) (genesisTimeMs : U64) (s : MintState) (timestampMs : U64) :
    WithinCaps p genesisTimeMs s timestampMs ↔ FloorBelowCaps p genesisTimeMs s timestampMs := by
  have caps := le_capped_reward_iff p genesisTimeMs timestampMs s.parentTimestampMs s.mintedSoFarSat s.height
    (mintBlock p genesisTimeMs s timestampMs).2.toNat
  unfold WithinCaps
  dsimp only
  rw [← caps]
  unfold FloorBelowCaps mintBlock currentRewardWithHeight
  dsimp only
  by_cases started : timestampMs ≤ genesisTimeMs
  · have idle : ¬ genesisTimeMs < timestampMs := BitVec.not_lt.mpr started
    rw [if_pos started]
    simp [idle]
  · have running : genesisTimeMs < timestampMs := BitVec.not_le.mp started
    rw [if_neg started, slew_limit_le_iff]
    simp only [running, true_implies]

theorem elapsed_mono (genesisTimeMs a b : U64) (after : genesisTimeMs ≤ a) (le : a ≤ b) :
    (a - genesisTimeMs).toNat ≤ (b - genesisTimeMs).toNat := by
  rw [BitVec.le_def] at after le
  rw [BitVec.toNat_sub_of_le (BitVec.le_def.mpr after), BitVec.toNat_sub_of_le (BitVec.le_def.mpr (after.trans le))]
  omega

theorem mint_block_schedule (genesisTimeMs : U64) (s : MintState) (timestampMs : U64)
    (after : genesisTimeMs ≤ s.parentTimestampMs) (ordered : s.parentTimestampMs ≤ timestampMs)
    (scheduled : s.mintedSoFarSat.toNat ≤ (scheduledSupplyAt (s.parentTimestampMs - genesisTimeMs) .bitcoinLike).toNat)
    (caps : WithinCaps .bitcoinLike genesisTimeMs s timestampMs) :
    WithinSchedule .bitcoinLike genesisTimeMs s timestampMs := by
  have later := scheduled_supply_mono _ _ (elapsed_mono genesisTimeMs _ _ after ordered)
  have calendar := caps.1
  rw [calendarRemaining, to_nat_saturating_sub] at calendar
  rw [WithinSchedule, mint_block_minted, to_nat_saturating_add]
  omega

theorem floor_keeps_schedule (genesisTimeMs : U64) (s : MintState) (timestamps : List U64)
    (after : genesisTimeMs ≤ s.parentTimestampMs) (ordered : (s.parentTimestampMs :: timestamps).IsChain (· ≤ ·))
    (scheduled : s.mintedSoFarSat.toNat ≤ (scheduledSupplyAt (s.parentTimestampMs - genesisTimeMs) .bitcoinLike).toNat)
    (floor : Along (mintBlock .bitcoinLike genesisTimeMs) (FloorBelowCaps .bitcoinLike genesisTimeMs) s timestamps) :
    Along (mintBlock .bitcoinLike genesisTimeMs) (fun s timestampMs => WithinCaps .bitcoinLike genesisTimeMs s timestampMs ∧
      WithinSchedule .bitcoinLike genesisTimeMs s timestampMs) s timestamps := by
  induction timestamps generalizing s with
  | nil => trivial
  | cons timestampMs tail ih =>
      obtain ⟨here, rest⟩ := floor
      obtain ⟨step, chained⟩ := List.isChain_cons_cons.mp ordered
      have caps := (within_caps_iff ..).mpr here
      have schedule := mint_block_schedule genesisTimeMs s timestampMs after step scheduled caps
      exact ⟨⟨caps, schedule⟩, ih _ (BitVec.le_trans after step) chained schedule rest⟩

theorem calendar_caps_iff (genesisTimeMs : U64) (timestamps : List U64)
    (ordered : (genesisTimeMs :: timestamps).IsChain (· ≤ ·)) :
    Along (mintBlock .bitcoinLike genesisTimeMs) (fun s timestampMs => WithinCaps .bitcoinLike genesisTimeMs s timestampMs ∧
        WithinSchedule .bitcoinLike genesisTimeMs s timestampMs) (.start genesisTimeMs) timestamps ↔
      Along (mintBlock .bitcoinLike genesisTimeMs) (FloorBelowCaps .bitcoinLike genesisTimeMs) (.start genesisTimeMs)
        timestamps := by
  constructor
  · exact along_mono _ _ _ _ _ fun s timestampMs _ both => (within_caps_iff ..).mp both.1
  · exact floor_keeps_schedule genesisTimeMs (.start genesisTimeMs) timestamps (BitVec.le_refl _) ordered (Nat.zero_le _)

theorem on_target_caps :
    Along (mintBlock .bitcoinLike 1778716820000) (fun s timestampMs =>
        WithinCaps .bitcoinLike 1778716820000 s timestampMs ∧ WithinSchedule .bitcoinLike 1778716820000 s timestampMs)
        (.start 1778716820000) [1778716820000, 1778717420000, 1778718020000] ↔
      Along (mintBlock .bitcoinLike 1778716820000) (FloorBelowCaps .bitcoinLike 1778716820000) (.start 1778716820000)
        [1778716820000, 1778717420000, 1778718020000] :=
  calendar_caps_iff 1778716820000 _ (by decide)

-- Three blocks at one timestamp: the floor pays the second one 1875000000 sat
-- where the proportional cap is 8333, and with the third the total passes the
-- 5000000000 sat scheduled for that time.
theorem burst_breaks_caps :
    ([1778716820000, 1778716820000, 1778717420000, 1778717420000, 1778717420000] : List U64).IsChain (· ≤ ·) ∧
      ¬ Along (mintBlock .bitcoinLike 1778716820000) (fun s timestampMs =>
        WithinCaps .bitcoinLike 1778716820000 s timestampMs ∧ WithinSchedule .bitcoinLike 1778716820000 s timestampMs)
        (.start 1778716820000) [1778716820000, 1778717420000, 1778717420000, 1778717420000] ∧
      (scheduledSupplyAt 600000 .bitcoinLike).toNat < (runCalls (mintBlock .bitcoinLike 1778716820000)
        (.start 1778716820000) [1778716820000, 1778717420000, 1778717420000, 1778717420000]).mintedSoFarSat.toNat := by
  have genesis : mintBlock .bitcoinLike 1778716820000 (.start 1778716820000) 1778716820000 =
      (⟨1, 1778716820000, 0, some 0⟩, 0) := by decide +kernel
  have onTarget : mintBlock .bitcoinLike 1778716820000 ⟨1, 1778716820000, 0, some 0⟩ 1778717420000 =
      (⟨2, 1778717420000, 2500000000, some 2500000000⟩, 2500000000) := by decide +kernel
  have lifted : mintBlock .bitcoinLike 1778716820000 ⟨2, 1778717420000, 2500000000, some 2500000000⟩ 1778717420000 =
      (⟨3, 1778717420000, 4375000000, some 1875000000⟩, 1875000000) := by decide +kernel
  refine ⟨by decide, ?_, by decide +kernel⟩
  simp only [Along, genesis, onTarget]
  rintro ⟨_, _, ⟨⟨_, _, proportional, _⟩, _⟩, _⟩
  rw [lifted] at proportional
  revert proportional
  decide +kernel

end PyGrove.Consensus
