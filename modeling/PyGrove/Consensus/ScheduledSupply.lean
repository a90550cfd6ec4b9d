import PyGrove.Lib.Halving
import PyGrove.Consensus.Emission

set_option autoImplicit false

namespace PyGrove.Consensus

open Words

namespace EmissionParams

variable (p : EmissionParams)

theorem to_nat_halving_ms : p.halvingMs.toNat = p.secondsPerHalving.toNat * 1000 := by
  have bound := p.secondsPerHalving.isLt
  rw [halvingMs, BitVec.toNat_mul, BitVec.toNat_setWidth, show (1000 : U128).toNat = 1000 from rfl, Nat.mod_eq_of_lt (by omega),
    Nat.mod_eq_of_lt (by omega)]

theorem to_nat_target_ms : (p.targetBlockTimeMs.setWidth 128 : U128).toNat = p.targetBlockTimeMs.toNat := by
  have bound := p.targetBlockTimeMs.isLt
  rw [BitVec.toNat_setWidth, Nat.mod_eq_of_lt (by omega)]

def blocksPerHalving : U128 := p.halvingMs / p.targetBlockTimeMs.setWidth 128

theorem to_nat_blocks_per_halving :
    p.blocksPerHalving.toNat = p.secondsPerHalving.toNat * 1000 / p.targetBlockTimeMs.toNat := by
  rw [blocksPerHalving, BitVec.toNat_udiv, to_nat_halving_ms, to_nat_target_ms]

def schedule (paid : 0 < p.blocksPerHalving.toNat) : Halving.Schedule where
  reward := p.initialRewardSat.toNat
  blocks := p.blocksPerHalving.toNat
  length := p.halvingMs.toNat
  started := by
    rw [blocksPerHalving, BitVec.toNat_udiv] at paid
    exact (Nat.div_pos_iff.mp paid).1.trans_le (Nat.div_pos_iff.mp paid).2
  paid := paid

theorem running (paid : 0 < p.blocksPerHalving.toNat) :
    ¬ (p.halvingMs = 0 ∨ p.targetBlockTimeMs.setWidth 128 = (0 : U128)) := by
  rintro (zero | zero)
  · rw [blocksPerHalving, zero, BitVec.toNat_udiv] at paid
    exact absurd paid (by simp)
  · rw [blocksPerHalving, zero, BitVec.toNat_udiv] at paid
    exact absurd paid (by simp)

end EmissionParams

theorem schedule_loop_saturates (s : Halving.Schedule) (blocksPerHalving : U128) (blocks : blocksPerHalving.toNat = s.blocks)
    (n epoch : ℕ) (cumulative currentReward : U128)
    (supplied : cumulative.toNat = min (Halving.completed s epoch) (2 ^ 128 - 1))
    (rewarded : currentReward.toNat = Halving.epochReward s epoch) :
    (scheduleLoop blocksPerHalving n (cumulative, currentReward)).1.toNat =
        min (Halving.completed s (epoch + n)) (2 ^ 128 - 1) ∧
      (scheduleLoop blocksPerHalving n (cumulative, currentReward)).2.toNat = Halving.epochReward s (epoch + n) := by
  induction n generalizing epoch cumulative currentReward with
  | zero => exact ⟨supplied, rewarded⟩
  | succ n ih =>
      rw [scheduleLoop, show epoch + (n + 1) = epoch + 1 + n by omega]
      apply ih (epoch + 1)
      · rw [to_nat_saturating_add, to_nat_saturating_mul, supplied, rewarded, blocks, Halving.completed]
        omega
      · rw [BitVec.toNat_ushiftRight, rewarded, Nat.shiftRight_eq_div_pow, Halving.epochReward, Halving.epochReward,
          Nat.div_div_eq_div_mul, ← Nat.pow_add]

theorem schedule_loop_idle (n : ℕ) (currentReward : U128) : (scheduleLoop 0 n (0, currentReward)).1 = 0 := by
  induction n generalizing currentReward with
  | zero => rfl
  | succ n ih =>
      have still : saturatingAdd (0 : U128) (saturatingMul currentReward 0) = 0 := by
        apply BitVec.eq_of_toNat_eq
        simp
      rw [scheduleLoop, still, ih]

section
variable (p : EmissionParams) (tMs : U64)

theorem to_nat_epoch_at : ((tMs.setWidth 128 : U128) / p.halvingMs).toNat = tMs.toNat / p.halvingMs.toNat := by
  have bound := tMs.isLt
  rw [BitVec.toNat_udiv, BitVec.toNat_setWidth, Nat.mod_eq_of_lt (by omega)]

theorem to_nat_elapsed_in_epoch :
    (tMs.setWidth 128 - tMs.setWidth 128 / p.halvingMs * p.halvingMs : U128).toNat = tMs.toNat % p.halvingMs.toNat := by
  have bound := tMs.isLt
  have split := Nat.div_add_mod' tMs.toNat p.halvingMs.toNat
  have wide : (tMs.setWidth 128 : U128).toNat = tMs.toNat := by
    rw [BitVec.toNat_setWidth, Nat.mod_eq_of_lt (by omega)]
  have passed : ((tMs.setWidth 128 : U128) / p.halvingMs * p.halvingMs).toNat =
      tMs.toNat / p.halvingMs.toNat * p.halvingMs.toNat := by
    rw [BitVec.toNat_mul, to_nat_epoch_at, Nat.mod_eq_of_lt (by omega)]
  rw [BitVec.toNat_sub_of_le (by rw [BitVec.le_def, passed, wide]; omega), passed, wide]
  omega

theorem scheduled_supply_value (paid : 0 < p.blocksPerHalving.toNat) :
    (scheduledSupplyAt tMs p).toNat =
      if 64 ≤ tMs.toNat / p.halvingMs.toNat then p.supplyCapSat.toNat
      else min (Halving.limitedSupply (p.schedule paid) (2 ^ 128 - 1) tMs.toNat) p.supplyCapSat.toNat := by
  have epoch := to_nat_epoch_at p tMs
  rw [scheduledSupplyAt]
  by_cases start : tMs = 0
  · rw [if_pos start, start]
    simp [Halving.limitedSupply, Halving.completed]
  · rw [if_neg start, if_neg (p.running paid)]
    dsimp only
    by_cases far : 64 ≤ tMs.toNat / p.halvingMs.toNat
    · rw [if_pos (by rw [BitVec.le_def, epoch]; exact far), if_pos far]
    · rw [if_neg (by rw [BitVec.le_def, epoch]; exact far), if_neg far, epoch]
      obtain ⟨supplied, rewarded⟩ := schedule_loop_saturates (p.schedule paid) p.blocksPerHalving rfl
        (tMs.toNat / p.halvingMs.toNat) 0 0 p.initialRewardSat rfl (Nat.div_one _).symm
      rw [Nat.zero_add] at supplied rewarded
      rw [EmissionParams.blocksPerHalving] at supplied rewarded
      have cap := p.supplyCapSat.isLt
      have counted : (saturatingMul (tMs.setWidth 128 - tMs.setWidth 128 / p.halvingMs * p.halvingMs : U128)
          (p.halvingMs / p.targetBlockTimeMs.setWidth 128) / p.halvingMs).toNat =
          min (tMs.toNat % (p.schedule paid).length * (p.schedule paid).blocks) (2 ^ 128 - 1) / (p.schedule paid).length := by
        rw [BitVec.toNat_udiv, to_nat_saturating_mul, to_nat_elapsed_in_epoch]
        rfl
      rw [to_nat_word_min, to_nat_saturating_add, to_nat_saturating_mul, counted, supplied, rewarded, Halving.limitedSupply]
      have length : (p.schedule paid).length = p.halvingMs.toNat := rfl
      rw [length]
      omega

theorem scheduled_supply_idle (idle : p.blocksPerHalving.toNat = 0) :
    scheduledSupplyAt tMs p = 0 ∨
      (64 ≤ tMs.toNat / p.halvingMs.toNat ∧ ¬ (p.halvingMs = 0 ∨ p.targetBlockTimeMs.setWidth 128 = (0 : U128)) ∧
        scheduledSupplyAt tMs p = p.supplyCapSat) := by
  have epoch := to_nat_epoch_at p tMs
  have none : p.halvingMs / p.targetBlockTimeMs.setWidth 128 = 0 := BitVec.eq_of_toNat_eq idle
  rw [scheduledSupplyAt]
  by_cases start : tMs = 0
  · exact .inl (if_pos start)
  · rw [if_neg start]
    by_cases stopped : p.halvingMs = 0 ∨ p.targetBlockTimeMs.setWidth 128 = (0 : U128)
    · exact .inl (if_pos stopped)
    · rw [if_neg stopped]
      dsimp only
      by_cases far : 64 ≤ tMs.toNat / p.halvingMs.toNat
      · exact .inr ⟨far, stopped, if_pos (by rw [BitVec.le_def, epoch]; exact far)⟩
      · refine .inl ?_
        rw [if_neg (by rw [BitVec.le_def, epoch]; exact far), none, schedule_loop_idle]
        apply BitVec.eq_of_toNat_eq
        simp

theorem schedule_le_cap : (scheduledSupplyAt tMs p).toNat ≤ p.supplyCapSat.toNat := by
  by_cases paid : 0 < p.blocksPerHalving.toNat
  · rw [scheduled_supply_value p tMs paid]
    split <;> omega
  · rcases scheduled_supply_idle p tMs (Nat.eq_zero_of_not_pos paid) with zero | ⟨_, _, capped⟩
    · rw [zero]
      exact Nat.zero_le _
    · rw [capped]

end

theorem schedule_mono (p : EmissionParams) (a b : U64) (le : a ≤ b) :
    (scheduledSupplyAt a p).toNat ≤ (scheduledSupplyAt b p).toNat := by
  have later : a.toNat ≤ b.toNat := BitVec.le_def.mp le
  have epochs := Nat.div_le_div_right (c := p.halvingMs.toNat) later
  by_cases paid : 0 < p.blocksPerHalving.toNat
  · have mono := Halving.limited_supply_mono (p.schedule paid) (2 ^ 128 - 1) a.toNat b.toNat later
    rw [scheduled_supply_value p a paid, scheduled_supply_value p b paid]
    split <;> split <;> omega
  · have idle := Nat.eq_zero_of_not_pos paid
    rcases scheduled_supply_idle p a idle with zero | ⟨far, running, capped⟩
    · rw [zero]
      exact Nat.zero_le _
    · have positive : b ≠ 0 := by
        rintro rfl
        rw [show (0 : U64).toNat = 0 from rfl, Nat.zero_div] at epochs
        omega
      have reached : scheduledSupplyAt b p = p.supplyCapSat := by
        rw [scheduledSupplyAt, if_neg positive, if_neg running]
        dsimp only
        rw [if_pos (by rw [BitVec.le_def, to_nat_epoch_at]; exact far.trans epochs)]
      rw [capped, reached]

def blockCountedSupply (p : EmissionParams) (blocksPerHalving count : ℕ) : ℕ :=
  ∑ i ∈ Finset.range count, (p.initialRewardSat >>> (i / blocksPerHalving)).toNat

theorem schedule_block_counted (p : EmissionParams) (tMs : U64) (blocks : ℕ) (interval : 0 < p.targetBlockTimeMs.toNat)
    (divides : p.secondsPerHalving.toNat * 1000 = blocks * p.targetBlockTimeMs.toNat) (positive : 0 < blocks)
    (fits : tMs.toNat % (p.secondsPerHalving.toNat * 1000) * blocks < 2 ^ 128)
    (early : tMs.toNat < 64 * (p.secondsPerHalving.toNat * 1000)) :
    (scheduledSupplyAt tMs p).toNat =
      min p.supplyCapSat.toNat (blockCountedSupply p blocks (tMs.toNat / p.targetBlockTimeMs.toNat)) := by
  have counted : p.blocksPerHalving.toNat = blocks := by
    rw [p.to_nat_blocks_per_halving, divides, Nat.mul_div_cancel _ interval]
  have paid : 0 < p.blocksPerHalving.toNat := by rwa [counted]
  have length : (p.schedule paid).length = p.secondsPerHalving.toNat * 1000 := p.to_nat_halving_ms
  have size : (p.schedule paid).blocks = blocks := counted
  have near : ¬ 64 ≤ tMs.toNat / p.halvingMs.toNat := by
    rw [p.to_nat_halving_ms, Nat.not_le, Nat.div_lt_iff_lt_mul (by rw [divides]; exact Nat.mul_pos positive interval)]
    exact early
  have exact := Halving.limited_supply_eq (p.schedule paid) (2 ^ 128 - 1) tMs.toNat (by rw [length, size]; omega)
  have summed := Halving.supply_eq_sum (p.schedule paid) p.targetBlockTimeMs.toNat tMs.toNat (by rw [length, size, divides])
  have rewards : ∀ i ∈ Finset.range (tMs.toNat / p.targetBlockTimeMs.toNat),
      Halving.epochReward (p.schedule paid) (i / (p.schedule paid).blocks) = (p.initialRewardSat >>> (i / blocks)).toNat := by
    intro i _
    rw [size, BitVec.toNat_ushiftRight, Nat.shiftRight_eq_div_pow]
    rfl
  rw [scheduled_supply_value p tMs paid, if_neg near, exact, summed, Finset.sum_congr rfl rewards, Nat.min_comm]
  rfl

theorem capped_bitcoin_curve (p : EmissionParams) :
    (∀ a b : U64, a ≤ b → (scheduledSupplyAt a p).toNat ≤ (scheduledSupplyAt b p).toNat) ∧
      (∀ tMs : U64, (scheduledSupplyAt tMs p).toNat ≤ p.supplyCapSat.toNat) ∧
      ∀ (tMs : U64) (blocks : ℕ), 0 < p.targetBlockTimeMs.toNat →
        p.secondsPerHalving.toNat * 1000 = blocks * p.targetBlockTimeMs.toNat → 0 < blocks →
        tMs.toNat % (p.secondsPerHalving.toNat * 1000) * blocks < 2 ^ 128 →
        tMs.toNat < 64 * (p.secondsPerHalving.toNat * 1000) →
        (scheduledSupplyAt tMs p).toNat =
          min p.supplyCapSat.toNat (blockCountedSupply p blocks (tMs.toNat / p.targetBlockTimeMs.toNat)) :=
  ⟨fun a b le => schedule_mono p a b le, fun tMs => schedule_le_cap p tMs, fun tMs blocks interval divides positive fits early =>
    schedule_block_counted p tMs blocks interval divides positive fits early⟩

theorem halvings_counted :
    let blocks := 210000
    let secondHalving : U64 := BitVec.ofNat 64 (2 * blocks * 600000)
    let later : U64 := BitVec.ofNat 64 ((9 * blocks + 17) * 600000 + 599999)
    (scheduledSupplyAt secondHalving .bitcoinLike).toNat ≤ (scheduledSupplyAt later .bitcoinLike).toNat ∧
      (scheduledSupplyAt later .bitcoinLike).toNat ≤ EmissionParams.bitcoinLike.supplyCapSat.toNat ∧
      ∀ tMs ∈ [secondHalving, later], (scheduledSupplyAt tMs .bitcoinLike).toNat =
        min EmissionParams.bitcoinLike.supplyCapSat.toNat
          (blockCountedSupply .bitcoinLike blocks (tMs.toNat / EmissionParams.bitcoinLike.targetBlockTimeMs.toNat)) := by
  intro blocks secondHalving later
  obtain ⟨mono, capped, counted⟩ := capped_bitcoin_curve .bitcoinLike
  refine ⟨mono secondHalving later (by decide), capped later, fun tMs member => ?_⟩
  rcases List.mem_pair.mp member with rfl | rfl
  · exact counted secondHalving blocks (by decide) (by decide) (by decide) (by decide) (by decide)
  · exact counted later blocks (by decide) (by decide) (by decide) (by decide) (by decide)

end PyGrove.Consensus
