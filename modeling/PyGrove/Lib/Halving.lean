import Mathlib.Algebra.BigOperators.Intervals
import Mathlib.Tactic.Ring

set_option autoImplicit false

/- An issuance schedule that halves its per-block reward at every epoch, in
   exact arithmetic on naturals. Within an epoch the supply grows block by
   block with the time elapsed. -/
namespace Halving

structure Schedule where
  reward : ℕ
  blocks : ℕ
  length : ℕ
  started : 0 < length
  paid : 0 < blocks

variable (s : Schedule)

def epochReward (epoch : ℕ) : ℕ := s.reward / 2 ^ epoch

def completed : ℕ → ℕ
  | 0 => 0
  | epoch + 1 => completed epoch + epochReward s epoch * s.blocks

def supply (time : ℕ) : ℕ :=
  completed s (time / s.length) + epochReward s (time / s.length) * (time % s.length * s.blocks / s.length)

theorem epoch_reward_succ (epoch : ℕ) : 2 * epochReward s (epoch + 1) ≤ epochReward s epoch := by
  rw [epochReward, Nat.pow_succ, ← Nat.div_div_eq_div_mul]
  exact Nat.mul_div_le _ 2

theorem completed_add_rest (epoch : ℕ) :
    completed s epoch + 2 * (epochReward s epoch * s.blocks) ≤ 2 * (s.reward * s.blocks) := by
  induction epoch with
  | zero => simp [completed, epochReward]
  | succ epoch ih =>
      have halved := Nat.mul_le_mul_right s.blocks (epoch_reward_succ s epoch)
      rw [completed]
      calc completed s epoch + epochReward s epoch * s.blocks + 2 * (epochReward s (epoch + 1) * s.blocks)
          = completed s epoch + epochReward s epoch * s.blocks + 2 * epochReward s (epoch + 1) * s.blocks := by ring
        _ ≤ completed s epoch + epochReward s epoch * s.blocks + epochReward s epoch * s.blocks :=
            Nat.add_le_add_left halved _
        _ = completed s epoch + 2 * (epochReward s epoch * s.blocks) := by ring
        _ ≤ 2 * (s.reward * s.blocks) := ih

theorem blocks_in_epoch (time : ℕ) : time % s.length * s.blocks / s.length < s.blocks := by
  have within := Nat.mod_lt time s.started
  rw [Nat.div_lt_iff_lt_mul s.started, Nat.mul_comm]
  exact Nat.mul_lt_mul_of_pos_left within s.paid

theorem supply_lt_epoch_end (time : ℕ) :
    supply s time + epochReward s (time / s.length) ≤ completed s (time / s.length + 1) := by
  have blocks := Nat.mul_le_mul_left (epochReward s (time / s.length)) (blocks_in_epoch s time)
  rw [Nat.mul_succ] at blocks
  rw [supply, completed]
  omega

theorem supply_add_rewards (time count : ℕ) (few : count ≤ s.blocks + 1) :
    supply s time + count * epochReward s (time / s.length) ≤ 2 * (s.reward * s.blocks) := by
  have ended := supply_lt_epoch_end s time
  have rest := completed_add_rest s (time / s.length)
  have rewards := Nat.mul_le_mul_right (epochReward s (time / s.length)) few
  rw [completed] at ended
  rw [Nat.add_mul, Nat.one_mul, Nat.mul_comm s.blocks] at rewards
  omega

theorem completed_mono (a b : ℕ) (le : a ≤ b) : completed s a ≤ completed s b := by
  induction le with
  | refl => exact Nat.le_refl _
  | step _ ih => exact Nat.le_trans ih (Nat.le_add_right _ _)

def limitedSupply (limit time : ℕ) : ℕ :=
  completed s (time / s.length) + epochReward s (time / s.length) * (min (time % s.length * s.blocks) limit / s.length)

theorem limited_supply_le (limit time : ℕ) : limitedSupply s limit time ≤ supply s time :=
  Nat.add_le_add_left (Nat.mul_le_mul_left _ (Nat.div_le_div_right (Nat.min_le_left _ _))) _

theorem limited_supply_eq (limit time : ℕ) (fits : time % s.length * s.blocks ≤ limit) :
    limitedSupply s limit time = supply s time := by
  rw [limitedSupply, supply, Nat.min_eq_left fits]

theorem limited_supply_mono (limit a b : ℕ) (le : a ≤ b) : limitedSupply s limit a ≤ limitedSupply s limit b := by
  rcases Nat.lt_or_eq_of_le (Nat.div_le_div_right (c := s.length) le) with earlier | same
  · have ended := supply_lt_epoch_end s a
    have behind := limited_supply_le s limit a
    have later : completed s (a / s.length + 1) ≤ completed s (b / s.length) := completed_mono s _ _ earlier
    simp only [limitedSupply] at behind ⊢
    omega
  · have rest : a % s.length ≤ b % s.length := by
      have splitA := Nat.div_add_mod a s.length
      have splitB := Nat.div_add_mod b s.length
      rw [same] at splitA
      omega
    have counted : min (a % s.length * s.blocks) limit ≤ min (b % s.length * s.blocks) limit := by
      have product := Nat.mul_le_mul_right s.blocks rest
      omega
    rw [limitedSupply, limitedSupply, same]
    exact Nat.add_le_add_left (Nat.mul_le_mul_left _ (Nat.div_le_div_right counted)) _

theorem sum_rewards (epoch count : ℕ) (within : count ≤ s.blocks) :
    ∑ i ∈ Finset.range (epoch * s.blocks + count), epochReward s (i / s.blocks) =
      completed s epoch + epochReward s epoch * count := by
  have running : ∀ epoch count, count ≤ s.blocks →
      ∑ i ∈ Finset.range count, epochReward s ((epoch * s.blocks + i) / s.blocks) = epochReward s epoch * count := by
    intro epoch count within
    have constant : ∀ i ∈ Finset.range count, epochReward s ((epoch * s.blocks + i) / s.blocks) = epochReward s epoch := by
      intro i member
      have early := Nat.lt_of_lt_of_le (Finset.mem_range.mp member) within
      rw [Nat.mul_comm, Nat.mul_add_div s.paid, Nat.div_eq_of_lt early, Nat.add_zero]
    rw [Finset.sum_const_nat constant, Finset.card_range, Nat.mul_comm]
  rw [Finset.sum_range_add, running epoch count within]
  congr 1
  induction epoch with
  | zero => rw [Nat.zero_mul, Finset.range_zero, Finset.sum_empty, completed]
  | succ epoch ih => rw [Nat.succ_mul, Finset.sum_range_add, ih, running epoch s.blocks (Nat.le_refl _), completed]

theorem supply_eq_sum (interval time : ℕ) (divides : s.length = s.blocks * interval) :
    supply s time = ∑ i ∈ Finset.range (time / interval), epochReward s (i / s.blocks) := by
  have started := s.started
  have within := Nat.mod_lt time started
  have positive : 0 < interval := by
    rw [divides] at started
    exact Nat.pos_of_mul_pos_left started
  have counted : time % s.length * s.blocks / s.length = time % s.length / interval := by
    conv => lhs; rw [divides, Nat.mul_comm s.blocks interval]
    rw [Nat.mul_div_mul_right _ _ s.paid, Nat.mul_comm interval, ← divides]
  have blocks : time / interval = time / s.length * s.blocks + time % s.length / interval := by
    conv => lhs; rw [← Nat.div_add_mod time s.length, divides]
    rw [Nat.mul_comm s.blocks interval, Nat.mul_assoc, Nat.mul_add_div positive, Nat.mul_comm interval, ← divides, Nat.mul_comm]
  have few : time % s.length / interval ≤ s.blocks := by
    rw [Nat.div_le_iff_le_mul_add_pred positive, Nat.mul_comm, ← divides]
    omega
  rw [blocks, sum_rewards s _ _ few, supply, counted]

end Halving
