import PyGrove.Consensus.RetargetBounds

set_option autoImplicit false

namespace PyGrove.Consensus

open Words PyGrove.Core

theorem moved_lt (hi : Nat) (growth : Int) (large : 2 ^ 112 ≤ hi) : movedUpper hi growth < hi := by
  have scaled := scaled_upper_le hi growth
  rw [movedUpper]
  omega

theorem scaled_upper_one (hi : Nat) (nonzero : hi ≠ 0) (small : hi < 2 ^ 112) : scaledUpper hi (2 ^ 16) = hi := by
  have one : ((2 : Int) ^ 16).toNat = 2 ^ 16 := by decide
  rw [scaledUpper, if_neg (by decide), one]
  omega

theorem retarget_value_on_schedule (value : Nat) (nonzero : value / 2 ^ 128 ≠ 0) (small : value < 2 ^ 240) :
    retargetValue value (2 ^ 16) = value := by
  have scaled := scaled_upper_one (value / 2 ^ 128) nonzero (by omega)
  rw [retarget_value_moved, movedUpper, scaled]
  omega

theorem retarget_value_lt (value : Nat) (growth : Int) (large : 2 ^ 240 ≤ value) : retargetValue value growth < value := by
  have moved := moved_lt (value / 2 ^ 128) growth (by omega)
  rw [retarget_value_moved]
  omega

theorem retarget_value_faster (value : Nat) (growth : Int) (nonzero : value / 2 ^ 128 ≠ 0) (fast : growth ≤ 2 ^ 16) :
    retargetValue value growth ≤ value := by
  by_cases small : value < 2 ^ 240
  · have faster := retarget_value_mono value growth (2 ^ 16) fast
    rwa [retarget_value_on_schedule value nonzero small] at faster
  · exact Nat.le_of_lt (retarget_value_lt value growth (Nat.le_of_not_lt small))

theorem retarget_value_slower (value : Nat) (growth : Int) (nonzero : value / 2 ^ 128 ≠ 0) (small : value < 2 ^ 240)
    (slow : 2 ^ 16 ≤ growth) : value ≤ retargetValue value growth := by
  have slower := retarget_value_mono value (2 ^ 16) growth slow
  rwa [retarget_value_on_schedule value nonzero small] at slower

theorem growth_on_schedule (elapsedMs : Int) (targetBlockTimeMs tauMs : Nat) (same : elapsedMs = targetBlockTimeMs) :
    growthQ16 elapsedMs targetBlockTimeMs tauMs = 2 ^ 16 := by
  rw [growthQ16, same, Int.sub_self, Int.zero_mul, Int.zero_tdiv]
  decide

theorem growth_faster (elapsedMs : Int) (targetBlockTimeMs tauMs : Nat) (positive : 0 < tauMs)
    (fast : elapsedMs ≤ targetBlockTimeMs) : growthQ16 elapsedMs targetBlockTimeMs tauMs ≤ 2 ^ 16 := by
  have mono := growth_mono elapsedMs targetBlockTimeMs targetBlockTimeMs tauMs positive fast
  rwa [growth_on_schedule _ targetBlockTimeMs tauMs rfl] at mono

theorem growth_slower (elapsedMs : Int) (targetBlockTimeMs tauMs : Nat) (positive : 0 < tauMs)
    (slow : targetBlockTimeMs ≤ elapsedMs) : 2 ^ 16 ≤ growthQ16 elapsedMs targetBlockTimeMs tauMs := by
  have mono := growth_mono targetBlockTimeMs elapsedMs targetBlockTimeMs tauMs positive slow
  rwa [growth_on_schedule _ targetBlockTimeMs tauMs rfl] at mono

theorem image_compact (bits : U32) (image : bits ∈ Set.range bitsFromTarget) (nonzero : targetValue bits ≠ 0) :
    CompactOf (targetValue bits) bits ∧ Compact.RoundsTo (targetValue bits) (targetValue bits) := by
  obtain ⟨target, rfl⟩ := image
  have compact := bits_from_target_compact target
  have present : ofBeBytes target.toList ≠ 0 := by
    intro zero
    rcases compact with ⟨_, empty⟩ | represents
    · apply nonzero
      rw [empty]
      decide
    · exact Compact.represents_positive _ _ _ represents zero
  have fits : ofBeBytes target.toList < 2 ^ 255 := by
    by_contra top
    exact nonzero (decoded_top _ _ compact (by omega))
  exact ⟨decoded_compact _ _ compact present fits, Compact.rounds_self _ _ (decoded_rounds _ _ compact present fits)⟩

def allowedDrop (value : Nat) : Nat := value * 8 / 100 / 2 ^ 128

-- The lower bound of the clamp is out by less than one unit, which is more than
-- the spare half percent only when the upper half is below 168.
def DropAllowed (value : Nat) (growth : Int) : Prop :=
  let hi := value / 2 ^ 128
  hi ≤ max (hi * 100 / 108) 1 + allowedDrop value ∨ (hi - allowedDrop value) * 2 ^ 16 ≤ hi * growth.toNat

theorem allowed_drop_ge (value : Nat) : value / 2 ^ 128 * 8 / 100 ≤ allowedDrop value := by
  rw [allowedDrop]
  omega

theorem moved_le (hi : Nat) (growth : Int) (nonzero : hi ≠ 0) : movedUpper hi growth * 100 ≤ hi * 108 := by
  have bounds := moved_bounds hi growth nonzero
  omega

theorem moved_saturated (hi : Nat) (growth : Int) (large : 2 ^ 128 ≤ hi * 100) :
    movedUpper hi growth = (2 ^ 128 - 1) / 108 := by
  have scaled := scaled_upper_le hi growth
  rw [movedUpper]
  omega

theorem drop_allowed_large (value : Nat) (growth : Int) (large : 168 ≤ value / 2 ^ 128) : DropAllowed value growth := by
  have allowed := allowed_drop_ge value
  simp only [DropAllowed]
  generalize value / 2 ^ 128 = hi at large allowed ⊢
  left
  by_cases wide : 338 ≤ hi
  · omega
  · have table : ∀ n < 338, 168 ≤ n → n ≤ n * 100 / 108 + n * 8 / 100 := by decide +kernel
    have fits := table hi (by omega) large
    omega

theorem drop_allowed_iff (value : Nat) (growth : Int) (small : value / 2 ^ 128 < 2 ^ 112) :
    DropAllowed value growth ↔ value / 2 ^ 128 ≤ movedUpper (value / 2 ^ 128) growth + allowedDrop value := by
  unfold DropAllowed movedUpper scaledUpper
  dsimp only
  generalize allowedDrop value = drop
  generalize value / 2 ^ 128 = hi at small ⊢
  by_cases negative : growth < 0
  · have nothing : growth.toNat = 0 := by omega
    rw [if_pos negative, nothing]
    omega
  · rw [if_neg negative]
    generalize hi * growth.toNat = product
    omega

theorem floor_saturated (value rounded : Nat) (growth : Int) (large : 2 ^ 128 ≤ value / 2 ^ 128 * 100) (fits : value < 2 ^ 255)
    (grid : Compact.RoundsTo value value) (rounds : Compact.RoundsTo (retargetValue value growth) rounded) :
    value * 92 ≤ rounded * 100 ↔ value ≤ 168852 * 2 ^ 232 := by
  obtain ⟨e, m, compact, exact⟩ := grid
  have longest := (compact_exponent value e m compact).2.mp fits
  have exponent : e = 32 := by
    by_contra shorter
    have scale : 256 ^ e ≤ 256 ^ 31 := Nat.pow_le_pow_right (by decide) (by omega)
    have most : (m + 1) * 256 ^ e ≤ 2 ^ 23 * 256 ^ 31 := Nat.mul_le_mul compact.high scale
    have ceil := compact.ceil
    omega
  rw [exponent] at exact
  have floor : Compact.Represents (retargetValue value growth) 32 155344 := by
    rw [retarget_value_moved, moved_saturated _ growth large]
    have below : value % 2 ^ 128 < 2 ^ 128 := Nat.mod_lt _ (by decide)
    exact ⟨by decide, by decide, by omega, by omega⟩
  have same := Compact.rounds_represents _ rounded 32 155344 floor rounds
  omega

theorem floor_wide (value rounded : Nat) (growth : Int) (wide : 168 ≤ value / 2 ^ 128) (small : value / 2 ^ 128 * 100 < 2 ^ 128)
    (rounds : Compact.RoundsTo (retargetValue value growth) rounded) : value * 92 ≤ rounded * 100 := by
  have close := Compact.rounds_close _ rounded rounds
  have bounds := moved_bounds (value / 2 ^ 128) growth (by omega)
  have split := Nat.div_add_mod value (2 ^ 128)
  rw [retarget_value_moved] at close
  omega

theorem narrow_exact (value moved : Nat) (narrow : value / 2 ^ 128 < 168)
    (grid : Compact.RoundsTo value value) (kept : moved ≠ 0) (lowered : moved ≤ value / 2 ^ 128) :
    Compact.RoundsTo (moved * 2 ^ 128 + value % 2 ^ 128) (moved * 2 ^ 128 + value % 2 ^ 128) := by
  obtain ⟨e, m, compact, exact⟩ := grid
  have low := compact.low
  have high := compact.high
  have exponent : e = 17 ∨ e = 18 := by
    have least : 17 ≤ e := by
      by_contra shorter
      have scale : 256 ^ e ≤ 256 ^ 16 := Nat.pow_le_pow_right (by decide) (by omega)
      have most : (m + 1) * 256 ^ e ≤ 2 ^ 23 * 256 ^ 16 := Nat.mul_le_mul high scale
      have ceil := compact.ceil
      omega
    have most : e ≤ 18 := by
      by_contra longer
      have scale : 256 ^ 19 ≤ 256 ^ e := Nat.pow_le_pow_right (by decide) (by omega)
      have above : 2 ^ 15 * 256 ^ 19 ≤ m * 256 ^ e := Nat.mul_le_mul low scale
      have floor := compact.floor
      omega
    omega
  rcases exponent with rfl | rfl
  · have whole : value = m * 2 ^ 112 := by omega
    have lower : value % 2 ^ 128 = m % 2 ^ 16 * 2 ^ 112 := by omega
    rw [lower]
    exact Compact.rounds_exact _ 17 (moved * 2 ^ 16 + m % 2 ^ 16) (by omega) (by omega) (by ring)
  · have whole : value = m * 2 ^ 120 := by omega
    have lower : value % 2 ^ 128 = m % 2 ^ 8 * 2 ^ 120 := by omega
    rw [lower]
    by_cases above : 2 ^ 7 ≤ moved
    · exact Compact.rounds_exact _ 18 (moved * 2 ^ 8 + m % 2 ^ 8) (by omega) (by omega) (by ring)
    · exact Compact.rounds_exact _ 17 (moved * 2 ^ 16 + m % 2 ^ 8 * 2 ^ 8) (by omega) (by omega) (by ring)

theorem floor_narrow (value rounded : Nat) (growth : Int) (nonzero : value / 2 ^ 128 ≠ 0) (narrow : value / 2 ^ 128 < 168)
    (grid : Compact.RoundsTo value value) (rounds : Compact.RoundsTo (retargetValue value growth) rounded) :
    value * 92 ≤ rounded * 100 ↔ DropAllowed value growth := by
  have bounds := moved_bounds (value / 2 ^ 128) growth nonzero
  have split := Nat.div_add_mod value (2 ^ 128)
  rw [drop_allowed_iff value growth (by omega), allowedDrop]
  rw [retarget_value_moved] at rounds
  by_cases raised : value / 2 ^ 128 < movedUpper (value / 2 ^ 128) growth
  · have above := Compact.rounds_mono value _ value rounded (by omega) grid rounds
    omega
  · have exact := narrow_exact value _ narrow grid (by omega) (Nat.le_of_not_lt raised)
    have same : rounded = movedUpper (value / 2 ^ 128) growth * 2 ^ 128 + value % 2 ^ 128 :=
      Nat.le_antisymm (Compact.rounds_le _ _ rounds) (Compact.rounds_mono _ _ _ _ (Nat.le_refl _) exact rounds)
    rw [same]
    omega

theorem floor_kept_iff (value rounded : Nat) (growth : Int) (nonzero : value / 2 ^ 128 ≠ 0) (fits : value < 2 ^ 255)
    (grid : Compact.RoundsTo value value) (rounds : Compact.RoundsTo (retargetValue value growth) rounded) :
    value * 92 ≤ rounded * 100 ↔ value ≤ 168852 * 2 ^ 232 ∧ DropAllowed value growth := by
  by_cases narrow : value / 2 ^ 128 < 168
  · rw [floor_narrow value rounded growth nonzero narrow grid rounds]
    exact (and_iff_right (by omega)).symm
  · rw [and_iff_left (drop_allowed_large value growth (Nat.le_of_not_lt narrow))]
    by_cases large : 2 ^ 128 ≤ value / 2 ^ 128 * 100
    · exact floor_saturated value rounded growth large fits grid rounds
    · have kept := floor_wide value rounded growth (Nat.le_of_not_lt narrow) (Nat.lt_of_not_le large) rounds
      exact iff_of_true kept (by omega)

section
variable (parentBits : U32) (parentHeight parentTimestampMs newBlockTimestampMs targetBlockTimeMs bootstrapHeight
    bootstrapAsertTauMs asertTauMs : U64)

def DirectionKept : Prop :=
  let elapsedMs : Int := newBlockTimestampMs.toNat - parentTimestampMs.toNat
  ∃ bits, nextBitsFromParent parentBits parentHeight parentTimestampMs newBlockTimestampMs targetBlockTimeMs
      bootstrapHeight bootstrapAsertTauMs asertTauMs = some bits ∧
    (elapsedMs = targetBlockTimeMs.toNat → bits = parentBits) ∧
    (elapsedMs < targetBlockTimeMs.toNat → targetNat (targetFromBits bits) ≤ targetNat (targetFromBits parentBits)) ∧
    (targetBlockTimeMs.toNat < elapsedMs → targetNat (targetFromBits parentBits) ≤ targetNat (targetFromBits bits))

theorem direction_kept_iff (image : parentBits ∈ Set.range bitsFromTarget)
    (nonzero : upperHalf (targetFromBits parentBits) ≠ 0) (grows : parentHeight ≠ BitVec.allOnes 64)
    (positive : nextTauMs parentHeight bootstrapHeight bootstrapAsertTauMs asertTauMs ≠ 0) :
    DirectionKept parentBits parentHeight parentTimestampMs newBlockTimestampMs targetBlockTimeMs bootstrapHeight
        bootstrapAsertTauMs asertTauMs ↔
      newBlockTimestampMs.toNat < parentTimestampMs.toNat + targetBlockTimeMs.toNat ∨
        targetNat (targetFromBits parentBits) < 2 ^ 240 := by
  rw [upper_half_nonzero] at nonzero
  obtain ⟨compact, rounds⟩ := image_compact parentBits image (by omega)
  obtain ⟨bits, next, nextCompact, nextRounds⟩ := next_bits_rounds parentBits parentHeight parentTimestampMs
    newBlockTimestampMs targetBlockTimeMs bootstrapHeight bootstrapAsertTauMs asertTauMs nonzero
  have tau : 0 < (nextTauMs parentHeight bootstrapHeight bootstrapAsertTauMs asertTauMs).toNat :=
    to_nat_pos _ positive
  rw [nextTarget, if_neg (not_or.mpr ⟨grows, positive⟩)] at nextCompact nextRounds
  have down := Compact.rounds_le _ _ nextRounds
  simp only [DirectionKept]
  simp only [next, Option.some.injEq, exists_eq_left', targetNat, to_nat_target_from_bits]
  constructor
  · intro kept
    obtain ⟨onSchedule, _, slower⟩ := kept
    by_contra failed
    obtain ⟨late, large⟩ := not_or.mp failed
    have falls := retarget_value_lt (targetValue parentBits)
      (growthQ16 (newBlockTimestampMs.toNat - parentTimestampMs.toNat) targetBlockTimeMs.toNat
        (nextTauMs parentHeight bootstrapHeight bootstrapAsertTauMs asertTauMs).toNat) (by omega)
    by_cases same : (newBlockTimestampMs.toNat : Int) - parentTimestampMs.toNat = targetBlockTimeMs.toNat
    · have unchanged := onSchedule same
      rw [unchanged] at down
      omega
    · have raised := slower (by omega)
      omega
  · intro condition
    refine ⟨?_, ?_, ?_⟩
    · intro same
      have small := condition.resolve_left (by omega)
      rw [growth_on_schedule _ _ _ same, retarget_value_on_schedule _ nonzero small] at nextCompact
      exact compact_of_unique _ _ _ nextCompact compact
    · intro fast
      have lowered := retarget_value_faster _ _ nonzero (growth_faster _ _ _ tau (Int.le_of_lt fast))
      exact down.trans lowered
    · intro slow
      have small := condition.resolve_left (by omega)
      have raised := retarget_value_slower _ _ nonzero small (growth_slower _ _ _ tau (Int.le_of_lt slow))
      exact Compact.rounds_mono _ _ _ _ raised rounds nextRounds

theorem schedule_keeps_direction :
    DirectionKept 0x1f00ffff 100 1000000000000 1000000600000 600000 1000 3600000 172800000 ↔
      (1000000600000 : U64).toNat < (1000000000000 : U64).toNat + (600000 : U64).toNat ∨
        targetNat (targetFromBits 0x1f00ffff) < 2 ^ 240 :=
  direction_kept_iff 0x1f00ffff 100 1000000000000 1000000600000 600000 1000 3600000 172800000
    ⟨targetFromBits 0x1f00ffff, by decide +kernel⟩ (by decide +kernel) (by decide) (by decide)

theorem on_schedule_target_falls :
    0x1f7fffff ∈ Set.range bitsFromTarget ∧ upperHalf (targetFromBits 0x1f7fffff) ≠ 0 ∧
      ¬ DirectionKept 0x1f7fffff 100 1000000000000 1000000600000 600000 1000 3600000 172800000 := by
  refine ⟨⟨targetFromBits 0x1f7fffff, by decide +kernel⟩, by decide +kernel, ?_⟩
  rintro ⟨bits, next, onSchedule, _⟩
  have fell : nextBitsFromParent 0x1f7fffff 100 1000000000000 1000000600000 600000 1000 3600000 172800000 ≠ some 0x1f7fffff := by
    decide +kernel
  rw [onSchedule (by decide)] at next
  exact fell next

def WithinClamp : Prop :=
  ∃ bits, nextBitsFromParent parentBits parentHeight parentTimestampMs newBlockTimestampMs targetBlockTimeMs
      bootstrapHeight bootstrapAsertTauMs asertTauMs = some bits ∧
    targetNat (targetFromBits bits) * 100 ≤ targetNat (targetFromBits parentBits) * 108 ∧
    targetNat (targetFromBits parentBits) * 92 ≤ targetNat (targetFromBits bits) * 100

theorem within_clamp_iff (image : parentBits ∈ Set.range bitsFromTarget)
    (nonzero : upperHalf (targetFromBits parentBits) ≠ 0)
    (positive : nextTauMs parentHeight bootstrapHeight bootstrapAsertTauMs asertTauMs ≠ 0) :
    WithinClamp parentBits parentHeight parentTimestampMs newBlockTimestampMs targetBlockTimeMs bootstrapHeight
        bootstrapAsertTauMs asertTauMs ↔
      parentHeight = BitVec.allOnes 64 ∨
        (targetNat (targetFromBits parentBits) ≤ 168852 * 2 ^ 232 ∧
          DropAllowed (targetNat (targetFromBits parentBits))
            (growthQ16 (newBlockTimestampMs.toNat - parentTimestampMs.toNat) targetBlockTimeMs.toNat
              (nextTauMs parentHeight bootstrapHeight bootstrapAsertTauMs asertTauMs).toNat)) := by
  rw [upper_half_nonzero] at nonzero
  obtain ⟨_, grid⟩ := image_compact parentBits image (by omega)
  obtain ⟨bits, next, _, rounds⟩ := next_bits_rounds parentBits parentHeight parentTimestampMs newBlockTimestampMs
    targetBlockTimeMs bootstrapHeight bootstrapAsertTauMs asertTauMs nonzero
  have fits := target_value_lt parentBits
  simp only [WithinClamp]
  simp only [next, Option.some.injEq, exists_eq_left', targetNat, to_nat_target_from_bits]
  rw [nextTarget] at rounds
  by_cases last : parentHeight = BitVec.allOnes 64
  · rw [if_pos (Or.inl last)] at rounds
    have down := Compact.rounds_le _ _ rounds
    have up := Compact.rounds_mono _ _ _ _ (Nat.le_refl _) grid rounds
    exact iff_of_true ⟨by omega, by omega⟩ (Or.inl last)
  · rw [if_neg (not_or.mpr ⟨last, positive⟩)] at rounds
    have down := Compact.rounds_le _ _ rounds
    have ceiling : targetValue bits * 100 ≤ targetValue parentBits * 108 := by
      have moved := moved_le (targetValue parentBits / 2 ^ 128)
        (growthQ16 (newBlockTimestampMs.toNat - parentTimestampMs.toNat) targetBlockTimeMs.toNat
          (nextTauMs parentHeight bootstrapHeight bootstrapAsertTauMs asertTauMs).toNat) nonzero
      rw [retarget_value_moved] at down
      omega
    rw [and_iff_right ceiling, or_iff_right last]
    exact floor_kept_iff _ _ _ nonzero fits grid rounds

theorem fast_block_within_clamp :
    WithinClamp 0x1f00ffff 100 1000000000000 1000000000001 600000 1000 3600000 172800000 ↔
      (100 : U64) = BitVec.allOnes 64 ∨
        (targetNat (targetFromBits 0x1f00ffff) ≤ 168852 * 2 ^ 232 ∧
          DropAllowed (targetNat (targetFromBits 0x1f00ffff))
            (growthQ16 ((1000000000001 : U64).toNat - (1000000000000 : U64).toNat) (600000 : U64).toNat
              (nextTauMs 100 1000 3600000 172800000).toNat)) :=
  within_clamp_iff 0x1f00ffff 100 1000000000000 1000000000001 600000 1000 3600000 172800000
    ⟨targetFromBits 0x1f00ffff, by decide +kernel⟩ (by decide +kernel) (by decide)

theorem largest_target_leaves_clamp :
    0x207fffff ∈ Set.range bitsFromTarget ∧ upperHalf (targetFromBits 0x207fffff) ≠ 0 ∧
      nextTauMs 100 1000 3600000 172800000 ≠ 0 ∧
      ¬ WithinClamp 0x207fffff 100 1000000000000 1000000600000 600000 1000 3600000 172800000 := by
  refine ⟨⟨targetFromBits 0x207fffff, by decide +kernel⟩, by decide +kernel, by decide, ?_⟩
  rintro ⟨bits, next, _, floor⟩
  have fell : nextBitsFromParent 0x207fffff 100 1000000000000 1000000600000 600000 1000 3600000 172800000 =
      some 0x20025ed0 := by
    decide +kernel
  rw [fell] at next
  cases next
  revert floor
  decide +kernel

end

end PyGrove.Consensus
