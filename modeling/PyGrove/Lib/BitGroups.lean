import Mathlib.Data.Nat.Notation

set_option autoImplicit false

/- Words read as strings of bits, most significant bit first, and a string of
   bits cut into words of another width. -/
namespace BitGroups

variable {w : ℕ}

def bitsOf (word : BitVec w) : List Bool := List.ofFn fun i : Fin w => word.getMsbD i

def ofBits (w : ℕ) (bits : List Bool) : BitVec w := (BitVec.ofBoolListBE bits).setWidth w

def groups (w : ℕ) : ℕ → List Bool → List (BitVec w)
  | 0, _ => []
  | count + 1, bits => ofBits w (bits.take w) :: groups w count (bits.drop w)

@[simp] theorem length_bits (word : BitVec w) : (bitsOf word).length = w := by simp [bitsOf]

@[simp] theorem length_groups (count : ℕ) (bits : List Bool) : (groups w count bits).length = count := by
  induction count generalizing bits with
  | zero => rfl
  | succ count ih => rw [groups, List.length_cons, ih]

theorem of_bits_bits (word : BitVec w) : ofBits w (bitsOf word) = word := by
  apply BitVec.eq_of_getLsbD_eq
  intro i bound
  have mirrored : w - 1 - (w - 1 - i) = i := by omega
  simp [ofBits, bitsOf, bound, BitVec.getMsbD, mirrored]

theorem bits_of_bits (bits : List Bool) (length : bits.length = w) : bitsOf (ofBits w bits) = bits := by
  subst length
  apply List.ext_getElem
  · simp
  · intro i bound inside
    simp [ofBits, bitsOf, List.getD_eq_getElem?_getD]

theorem bits_append {v : ℕ} (a : BitVec w) (b : BitVec v) : bitsOf (a ++ b) = bitsOf a ++ bitsOf b := by
  apply List.ext_getElem
  · simp
  · intro i bound _
    rw [length_bits] at bound
    by_cases first : i < w
    · simp [bitsOf, first, Nat.not_le.mpr first, BitVec.getMsbD_append]
    · simp [bitsOf, BitVec.getMsbD_append, Nat.not_lt.mp first]

theorem length_flat_bits (words : List (BitVec w)) : (words.flatMap bitsOf).length = words.length * w := by
  induction words with
  | nil => simp
  | cons word words ih => rw [List.flatMap_cons, List.length_append, ih, length_bits, List.length_cons, Nat.succ_mul, Nat.add_comm]

theorem groups_bits (words : List (BitVec w)) (tail : List Bool) :
    groups w words.length (words.flatMap bitsOf ++ tail) = words := by
  induction words with
  | nil => rfl
  | cons word words ih =>
      rw [List.length_cons, groups, List.flatMap_cons, List.append_assoc, List.take_left' (length_bits word),
        List.drop_left' (length_bits word), of_bits_bits, ih]

theorem bits_groups (count : ℕ) (bits : List Bool) (enough : count * w ≤ bits.length) :
    (groups w count bits).flatMap bitsOf = bits.take (count * w) := by
  induction count generalizing bits with
  | zero => simp [groups]
  | succ count ih =>
      rw [Nat.succ_mul] at enough
      have first : (bits.take w).length = w := by
        rw [List.length_take]
        omega
      rw [groups, List.flatMap_cons, bits_of_bits _ first, ih _ (by rw [List.length_drop]; omega), Nat.succ_mul, Nat.add_comm,
        List.take_add]

theorem flat_bits_inj (a b : List (BitVec w)) (length : a.length = b.length)
    (same : a.flatMap bitsOf = b.flatMap bitsOf) : a = b := by
  have back := groups_bits a []
  rw [List.append_nil, same, length] at back
  rw [← back]
  simpa using groups_bits b []

end BitGroups
