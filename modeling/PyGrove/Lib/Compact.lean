import PyGrove.Lib.Words

set_option autoImplicit false

/- Numbers with a three-byte mantissa over a count of bytes. The top bit of the
   mantissa stays clear, so its leading byte is the second one when the number
   starts with a byte of 0x80 or more. -/
namespace Compact

structure Represents (value exponent mantissa : Nat) : Prop where
  low : 2 ^ 15 ≤ mantissa
  high : mantissa < 2 ^ 23
  floor : mantissa * 256 ^ exponent ≤ value * 256 ^ 3
  ceil : value * 256 ^ 3 < (mantissa + 1) * 256 ^ exponent

instance (value exponent mantissa : Nat) : Decidable (Represents value exponent mantissa) :=
  decidable_of_iff
    (2 ^ 15 ≤ mantissa ∧ mantissa < 2 ^ 23 ∧ mantissa * 256 ^ exponent ≤ value * 256 ^ 3 ∧
      value * 256 ^ 3 < (mantissa + 1) * 256 ^ exponent)
    ⟨fun h => ⟨h.1, h.2.1, h.2.2.1, h.2.2.2⟩, fun h => ⟨h.low, h.high, h.floor, h.ceil⟩⟩

theorem exponent_le (value e e' m m' : Nat) (first : Represents value e m) (second : Represents value e' m') : e' ≤ e := by
  by_contra longer
  have scale : 256 ^ (e + 1) ≤ 256 ^ e' := Nat.pow_le_pow_right (by decide) (by omega)
  have above : 2 ^ 15 * 256 ^ (e + 1) ≤ m' * 256 ^ e' := Nat.mul_le_mul second.low scale
  have below : (m + 1) * 256 ^ e ≤ 2 ^ 23 * 256 ^ e := Nat.mul_le_mul_right _ first.high
  have same : 2 ^ 15 * 256 ^ (e + 1) = 2 ^ 23 * 256 ^ e := by
    rw [Nat.pow_succ]
    ring
  have floor := second.floor
  have ceil := first.ceil
  omega

theorem represents_unique (value e e' m m' : Nat) (first : Represents value e m) (second : Represents value e' m') :
    e = e' ∧ m = m' := by
  obtain rfl : e = e' :=
    Nat.le_antisymm (exponent_le value e' e m' m second first) (exponent_le value e e' m m' first second)
  have le := Nat.lt_of_mul_lt_mul_right (Nat.lt_of_le_of_lt first.floor second.ceil)
  have ge := Nat.lt_of_mul_lt_mul_right (Nat.lt_of_le_of_lt second.floor first.ceil)
  exact ⟨rfl, by omega⟩

theorem represents_positive (value e m : Nat) (compact : Represents value e m) : value ≠ 0 := by
  rintro rfl
  have floor := compact.floor
  have positive : 0 < m * 256 ^ e := Nat.mul_pos (by have := compact.low; omega) (Nat.pow_pos (by decide))
  omega

theorem represents_of_quotient (value e m : Nat) (low : 2 ^ 15 ≤ m) (high : m < 2 ^ 23)
    (quotient : value * 256 ^ 3 / 256 ^ e = m) : Represents value e m := by
  have positive : 0 < 256 ^ e := Nat.pow_pos (by decide)
  refine ⟨low, high, ?_, ?_⟩
  · rw [← quotient]
    exact Nat.div_mul_le_self ..
  · rw [← quotient, Nat.mul_comm _ (256 ^ e)]
    exact Nat.lt_mul_div_succ _ positive

def RoundsTo (value rounded : Nat) : Prop :=
  ∃ exponent mantissa, Represents value exponent mantissa ∧ rounded * 256 ^ 3 = mantissa * 256 ^ exponent

theorem represents_read_back (value e m : Nat) (compact : Represents value e m) :
    RoundsTo value (m * 256 ^ e / 256 ^ 3) := by
  refine ⟨e, m, compact, Nat.div_mul_cancel ?_⟩
  by_cases short : e < 3
  · have split : 256 ^ 3 = 256 ^ (3 - e) * 256 ^ e := by
      rw [← Nat.pow_add, Nat.sub_add_cancel (by omega)]
    have floor := compact.floor
    have ceil := compact.ceil
    rw [split, ← Nat.mul_assoc] at floor ceil
    have le := Nat.le_of_mul_le_mul_right floor (Nat.pow_pos (by decide))
    have ge := Nat.lt_of_mul_lt_mul_right ceil
    have whole : m = value * 256 ^ (3 - e) := by omega
    rw [whole, Nat.mul_assoc, ← split]
    exact Nat.dvd_mul_left ..
  · exact Nat.dvd_mul_left_of_dvd (Nat.pow_dvd_pow 256 (by omega)) m

theorem rounds_represents (value rounded e m : Nat) (compact : Represents value e m) (rounds : RoundsTo value rounded) :
    rounded * 256 ^ 3 = m * 256 ^ e := by
  obtain ⟨e', m', compact', same⟩ := rounds
  obtain ⟨rfl, rfl⟩ := represents_unique value e e' m m' compact compact'
  exact same

theorem rounds_le (value rounded : Nat) (rounds : RoundsTo value rounded) : rounded ≤ value := by
  obtain ⟨e, m, compact, same⟩ := rounds
  have floor := compact.floor
  omega

theorem represents_rounded (value rounded e m : Nat) (compact : Represents value e m) (rounds : RoundsTo value rounded) :
    Represents rounded e m := by
  have same := rounds_represents value rounded e m compact rounds
  have positive : 0 < 256 ^ e := Nat.pow_pos (by decide)
  refine ⟨compact.low, compact.high, same.ge, ?_⟩
  rw [same, Nat.succ_mul]
  omega

theorem rounds_self (value rounded : Nat) (rounds : RoundsTo value rounded) : RoundsTo rounded rounded := by
  obtain ⟨e, m, compact, same⟩ := rounds
  exact ⟨e, m, represents_rounded value rounded e m compact ⟨e, m, compact, same⟩, same⟩

theorem rounds_mono (a b roundedA roundedB : Nat) (le : a ≤ b) (first : RoundsTo a roundedA) (second : RoundsTo b roundedB) :
    roundedA ≤ roundedB := by
  have below := rounds_le a roundedA first
  obtain ⟨e, m, compactA, sameA⟩ := rounds_self a roundedA first
  obtain ⟨e', m', compactB, sameB⟩ := second
  have ceil := compactB.ceil
  rcases Nat.lt_trichotomy e e' with shorter | rfl | longer
  · -- The shorter of two numbers lies below the smallest mantissa of the longer.
    have scale : 256 ^ (e + 1) ≤ 256 ^ e' := Nat.pow_le_pow_right (by decide) shorter
    have above : 2 ^ 15 * 256 ^ (e + 1) ≤ m' * 256 ^ e' := Nat.mul_le_mul compactB.low scale
    have under : m * 256 ^ e ≤ 2 ^ 23 * 256 ^ e := Nat.mul_le_mul_right _ (Nat.le_of_lt compactA.high)
    rw [Nat.pow_succ] at above
    omega
  · have mantissas : m * 256 ^ e < (m' + 1) * 256 ^ e := by omega
    have ordered := Nat.mul_le_mul_right (256 ^ e) (Nat.le_of_lt_succ (Nat.lt_of_mul_lt_mul_right mantissas))
    omega
  · have scale : 256 ^ (e' + 1) ≤ 256 ^ e := Nat.pow_le_pow_right (by decide) longer
    have above : 2 ^ 15 * 256 ^ (e' + 1) ≤ m * 256 ^ e := Nat.mul_le_mul compactA.low scale
    have under : (m' + 1) * 256 ^ e' ≤ 2 ^ 23 * 256 ^ e' := Nat.mul_le_mul_right _ compactB.high
    rw [Nat.pow_succ] at above
    omega

theorem rounds_gap (value rounded e m : Nat) (compact : Represents value e m) (rounds : RoundsTo value rounded) :
    (value - rounded) * 256 ^ 3 < 256 ^ e := by
  have same := rounds_represents value rounded e m compact rounds
  have positive : 0 < 256 ^ e := Nat.pow_pos (by decide)
  have ceil := compact.ceil
  rw [Nat.succ_mul] at ceil
  rw [Nat.mul_sub_right_distrib, same]
  omega

theorem rounds_close (value rounded : Nat) (rounds : RoundsTo value rounded) : (value - rounded) * 2 ^ 15 < rounded := by
  obtain ⟨e, m, compact, same⟩ := rounds
  have gap := rounds_gap value rounded e m compact ⟨e, m, compact, same⟩
  have low : 2 ^ 15 * 256 ^ e ≤ m * 256 ^ e := Nat.mul_le_mul_right _ compact.low
  apply Nat.lt_of_mul_lt_mul_right (a := 256 ^ 3)
  calc (value - rounded) * 2 ^ 15 * 256 ^ 3 = 2 ^ 15 * ((value - rounded) * 256 ^ 3) := by ring
    _ < 2 ^ 15 * 256 ^ e := Nat.mul_lt_mul_of_pos_left gap (by decide)
    _ ≤ rounded * 256 ^ 3 := low.trans same.ge

theorem rounds_exact (value e m : Nat) (low : 2 ^ 15 ≤ m) (high : m < 2 ^ 23) (same : value * 256 ^ 3 = m * 256 ^ e) :
    RoundsTo value value := by
  have positive : 0 < 256 ^ e := Nat.pow_pos (by decide)
  refine ⟨e, m, ⟨low, high, same.ge, ?_⟩, same⟩
  rw [same, Nat.succ_mul]
  omega

theorem represents_leading (value n lead : Nat) (leading : value / 256 ^ n = lead) (positive : 1 ≤ lead) (byte : lead < 256) :
    ∃ m, Represents value (if lead < 2 ^ 7 then n + 1 else n + 2) m := by
  have unit : 0 < 256 ^ n := Nat.pow_pos (by decide)
  have floor : lead * 256 ^ n ≤ value := leading ▸ Nat.div_mul_le_self value (256 ^ n)
  have ceil : value < (lead + 1) * 256 ^ n := by
    rw [← leading, Nat.mul_comm]
    exact Nat.lt_mul_div_succ value unit
  by_cases plain : lead < 2 ^ 7
  · have least : 1 * 256 ^ n ≤ lead * 256 ^ n := Nat.mul_le_mul_right _ positive
    have most : (lead + 1) * 256 ^ n ≤ 2 ^ 7 * 256 ^ n := Nat.mul_le_mul_right _ plain
    have scale : 256 ^ (n + 1) = 256 ^ n * 256 := Nat.pow_succ ..
    rw [if_pos plain]
    refine ⟨_, represents_of_quotient value (n + 1) _ ?_ ?_ rfl⟩
    · rw [Nat.le_div_iff_mul_le (by omega)]
      omega
    · rw [Nat.div_lt_iff_lt_mul (by omega)]
      omega
  · have least : 2 ^ 7 * 256 ^ n ≤ lead * 256 ^ n := Nat.mul_le_mul_right _ (Nat.le_of_not_lt plain)
    have most : (lead + 1) * 256 ^ n ≤ 256 * 256 ^ n := Nat.mul_le_mul_right _ byte
    have scale : 256 ^ (n + 2) = 256 ^ n * 256 ^ 2 := Nat.pow_add ..
    rw [if_neg plain]
    refine ⟨_, represents_of_quotient value (n + 2) _ ?_ ?_ rfl⟩
    · rw [Nat.le_div_iff_mul_le (by omega)]
      omega
    · rw [Nat.div_lt_iff_lt_mul (by omega)]
      omega

theorem rounds_leading (value rounded n lead : Nat) (leading : value / 256 ^ n = lead) (positive : 1 ≤ lead)
    (byte : lead < 256) (rounds : RoundsTo value rounded) : rounded / 256 ^ n = lead := by
  have unit : 0 < 256 ^ n := Nat.pow_pos (by decide)
  have floor : lead * 256 ^ n ≤ value := leading ▸ Nat.div_mul_le_self value (256 ^ n)
  have kept : RoundsTo (lead * 256 ^ n) (lead * 256 ^ n) := by
    by_cases plain : lead < 2 ^ 7
    · refine rounds_exact _ (n + 1) (lead * 2 ^ 16) (by omega) (by omega) ?_
      rw [Nat.pow_succ]
      ring
    · refine rounds_exact _ (n + 2) (lead * 2 ^ 8) (by omega) (by omega) ?_
      rw [Nat.pow_add]
      ring
  have above := rounds_mono _ value _ rounded floor kept rounds
  have below := Nat.div_le_div_right (c := 256 ^ n) (rounds_le value rounded rounds)
  rw [leading] at below
  exact Nat.le_antisymm below ((Nat.le_div_iff_mul_le unit).mpr above)

end Compact
