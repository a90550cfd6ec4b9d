import Mathlib.Data.List.Induction
import Mathlib.Data.Vector.Basic
import Mathlib.Tactic.Ring

set_option autoImplicit false

/- Machine words as bit vectors. A word is read through toNat; every operation
   below has one simp lemma that gives its toNat as arithmetic on naturals, so
   that proofs about word programs end in omega. -/
namespace Words

abbrev U8 := BitVec 8
abbrev U32 := BitVec 32
abbrev U64 := BitVec 64
abbrev U128 := BitVec 128
abbrev I8 := BitVec 8
abbrev I128 := BitVec 128

abbrev Bytes (n : Nat) := List.Vector U8 n

variable {w : Nat}

def checkedAdd (a b : BitVec w) : Option (BitVec w) :=
  if a.toNat + b.toNat < 2 ^ w then some (a + b) else none

def saturatingAdd (a b : BitVec w) : BitVec w :=
  if a.toNat + b.toNat < 2 ^ w then a + b else BitVec.allOnes w

def saturatingSub (a b : BitVec w) : BitVec w :=
  if b.toNat ≤ a.toNat then a - b else 0#w

def saturatingMul (a b : BitVec w) : BitVec w :=
  if a.toNat * b.toNat < 2 ^ w then a * b else BitVec.allOnes w

def wordMin (a b : BitVec w) : BitVec w :=
  if a.toNat ≤ b.toNat then a else b

def wordMax (a b : BitVec w) : BitVec w :=
  if a.toNat ≤ b.toNat then b else a

-- Ord::clamp for a lower bound that does not exceed the upper one.
def wordClamp (a lower upper : BitVec w) : BitVec w :=
  if a.toNat < lower.toNat then lower else if upper.toNat < a.toNat then upper else a

theorem checked_add_some (a b c : BitVec w) :
    checkedAdd a b = some c ↔ c.toNat = a.toNat + b.toNat := by
  simp only [checkedAdd]
  split
  · rename_i fits
    rw [Option.some.injEq]
    constructor
    · intro same
      rw [← same, BitVec.toNat_add, Nat.mod_eq_of_lt fits]
    · intro value
      apply BitVec.eq_of_toNat_eq
      rw [BitVec.toNat_add, Nat.mod_eq_of_lt fits, value]
  · rename_i overflow
    have bound := c.isLt
    constructor
    · intro none
      cases none
    · intro value
      omega

theorem checked_add_none (a b : BitVec w) :
    checkedAdd a b = none ↔ 2 ^ w ≤ a.toNat + b.toNat := by
  simp only [checkedAdd]
  split <;> simp <;> omega

@[simp] theorem to_nat_saturating_add (a b : BitVec w) :
    (saturatingAdd a b).toNat = min (a.toNat + b.toNat) (2 ^ w - 1) := by
  have positive : 0 < 2 ^ w := Nat.two_pow_pos w
  simp only [saturatingAdd]
  split
  · rename_i fits
    rw [BitVec.toNat_add, Nat.mod_eq_of_lt fits]
    omega
  · rw [BitVec.toNat_allOnes]
    omega

@[simp] theorem to_nat_saturating_sub (a b : BitVec w) :
    (saturatingSub a b).toNat = a.toNat - b.toNat := by
  simp only [saturatingSub]
  split
  · rename_i le
    rw [BitVec.toNat_sub_of_le (by simpa [BitVec.le_def] using le)]
  · rw [BitVec.toNat_ofNat, Nat.zero_mod]
    omega

@[simp] theorem to_nat_saturating_mul (a b : BitVec w) :
    (saturatingMul a b).toNat = min (a.toNat * b.toNat) (2 ^ w - 1) := by
  have positive : 0 < 2 ^ w := Nat.two_pow_pos w
  simp only [saturatingMul]
  split
  · rename_i fits
    rw [BitVec.toNat_mul, Nat.mod_eq_of_lt fits]
    omega
  · rw [BitVec.toNat_allOnes]
    omega

theorem to_nat_pos (a : BitVec w) (nonzero : a ≠ 0) : 0 < a.toNat :=
  Nat.pos_of_ne_zero fun zero => nonzero (BitVec.eq_of_toNat_eq zero)

theorem to_nat_lt_top (a : BitVec w) (room : a ≠ BitVec.allOnes w) : a.toNat + 1 < 2 ^ w := by
  have bound := a.isLt
  have below : a.toNat ≠ 2 ^ w - 1 := by
    intro top
    apply room
    apply BitVec.eq_of_toNat_eq
    rw [top, BitVec.toNat_allOnes]
  omega

theorem to_nat_succ (a : BitVec w) (room : a.toNat + 1 < 2 ^ w) : (a + 1).toNat = a.toNat + 1 := by
  have small : 1 < 2 ^ w := by omega
  have one : (1 : BitVec w).toNat = 1 := Nat.mod_eq_of_lt small
  rw [BitVec.toNat_add, one, Nat.mod_eq_of_lt room]

theorem to_nat_saturating_succ (a : BitVec w) : (saturatingAdd a 1).toNat = min (a.toNat + 1) (2 ^ w - 1) := by
  rw [to_nat_saturating_add]
  cases w with
  | zero => rw [Nat.pow_zero, Nat.sub_self, Nat.min_zero, Nat.min_zero]
  | succ n =>
      have one : (1 : BitVec (n + 1)).toNat = 1 := Nat.mod_eq_of_lt (Nat.one_lt_two_pow (Nat.succ_ne_zero n))
      rw [one]

@[simp] theorem to_nat_word_min (a b : BitVec w) : (wordMin a b).toNat = min a.toNat b.toNat := by
  simp only [wordMin]
  split <;> omega

@[simp] theorem to_nat_word_max (a b : BitVec w) : (wordMax a b).toNat = max a.toNat b.toNat := by
  simp only [wordMax]
  split <;> omega

theorem to_nat_word_clamp (a lower upper : BitVec w) (ordered : lower.toNat ≤ upper.toNat) :
    (wordClamp a lower upper).toNat = max lower.toNat (min a.toNat upper.toNat) := by
  simp only [wordClamp]
  split
  · omega
  · split <;> omega

def leBytes : Nat → Nat → List U8
  | 0, _ => []
  | n + 1, x => BitVec.ofNat 8 x :: leBytes n (x / 256)

def ofLeBytes : List U8 → Nat
  | [] => 0
  | byte :: tail => byte.toNat + 256 * ofLeBytes tail

def beBytes (n x : Nat) : List U8 := (leBytes n x).reverse

def ofBeBytes : List U8 → Nat
  | [] => 0
  | byte :: tail => byte.toNat * 256 ^ tail.length + ofBeBytes tail

def wrapSigned (w : Nat) (x : Int) : Int := x.bmod (2 ^ w)

def saturateSigned (w : Nat) (x : Int) : Int := max (-2 ^ (w - 1)) (min x (2 ^ (w - 1) - 1))

theorem wrap_signed_fits (x : Int) (low : -2 ^ 127 ≤ x) (high : x < 2 ^ 127) : wrapSigned 128 x = x := by
  rw [wrapSigned]
  apply Int.bmod_eq_of_le <;> omega

theorem saturate_signed_fits (x : Int) (low : -2 ^ 127 ≤ x) (high : x < 2 ^ 127) : saturateSigned 128 x = x := by
  simp only [saturateSigned]
  omega

@[simp] theorem length_le_bytes (n x : Nat) : (leBytes n x).length = n := by
  induction n generalizing x with
  | zero => rfl
  | succ n ih => simp [leBytes, ih]

@[simp] theorem length_be_bytes (n x : Nat) : (beBytes n x).length = n := by
  simp [beBytes]

theorem of_le_bytes_le_bytes (n x : Nat) : ofLeBytes (leBytes n x) = x % 256 ^ n := by
  induction n generalizing x with
  | zero => simp [leBytes, ofLeBytes, Nat.mod_one]
  | succ n ih =>
      have power : 256 ^ (n + 1) = 256 * 256 ^ n := Nat.pow_succ'
      rw [leBytes, ofLeBytes, ih, BitVec.toNat_ofNat, power, Nat.mod_mul]

theorem of_le_bytes_append (a b : List U8) : ofLeBytes (a ++ b) = ofLeBytes a + 256 ^ a.length * ofLeBytes b := by
  induction a with
  | nil => simp [ofLeBytes]
  | cons byte tail ih =>
      rw [List.cons_append, ofLeBytes, ofLeBytes, ih, List.length_cons, Nat.pow_succ]
      ring

theorem le_bytes_take (n k x : Nat) (le : k ≤ n) : (leBytes n x).take k = leBytes k x := by
  induction k generalizing n x with
  | zero => rw [List.take_zero, leBytes]
  | succ k ih =>
      obtain ⟨n, rfl⟩ := Nat.exists_eq_add_one.mpr (Nat.lt_of_lt_of_le (Nat.succ_pos k) le)
      rw [leBytes, leBytes, List.take_succ_cons, ih n _ (Nat.le_of_succ_le_succ le)]

theorem of_be_bytes_lt (bytes : List U8) : ofBeBytes bytes < 256 ^ bytes.length := by
  induction bytes with
  | nil => exact Nat.one_pos
  | cons byte tail ih =>
      have bound := byte.isLt
      have head : byte.toNat * 256 ^ tail.length + 256 ^ tail.length ≤ 256 * 256 ^ tail.length := by
        rw [← Nat.succ_mul]
        exact Nat.mul_le_mul_right _ (by omega)
      rw [ofBeBytes, List.length_cons, Nat.pow_succ']
      omega

theorem of_be_bytes_append (a b : List U8) : ofBeBytes (a ++ b) = ofBeBytes a * 256 ^ b.length + ofBeBytes b := by
  induction a with
  | nil => rw [List.nil_append, ofBeBytes, Nat.zero_mul, Nat.zero_add]
  | cons byte tail ih =>
      rw [List.cons_append, ofBeBytes, ofBeBytes, ih, List.length_append, Nat.pow_add, Nat.add_mul, Nat.mul_assoc,
        Nat.add_assoc]

theorem of_be_bytes_zeros (n : Nat) : ofBeBytes (List.replicate n 0) = 0 := by
  induction n with
  | zero => rfl
  | succ n ih =>
      rw [List.replicate_succ, ofBeBytes, ih]
      exact Nat.zero_mul _

theorem of_be_bytes_take (bytes : List U8) (n : Nat) :
    ofBeBytes (bytes.take n) = ofBeBytes bytes / 256 ^ (bytes.length - n) := by
  have split := of_be_bytes_append (bytes.take n) (bytes.drop n)
  have low := of_be_bytes_lt (bytes.drop n)
  rw [List.take_append_drop] at split
  rw [List.length_drop] at split low
  rw [split, Nat.add_comm, Nat.add_mul_div_right _ _ (Nat.lt_of_le_of_lt (Nat.zero_le _) low), Nat.div_eq_of_lt low, Nat.zero_add]

theorem of_be_bytes_drop (bytes : List U8) (n : Nat) :
    ofBeBytes (bytes.drop n) = ofBeBytes bytes % 256 ^ (bytes.length - n) := by
  have split := of_be_bytes_append (bytes.take n) (bytes.drop n)
  have low := of_be_bytes_lt (bytes.drop n)
  rw [List.take_append_drop] at split
  rw [List.length_drop] at split low
  rw [split, Nat.add_comm, Nat.add_mul_mod_self_right, Nat.mod_eq_of_lt low]

theorem of_be_bytes_be_bytes (n x : Nat) (fits : x < 256 ^ n) : ofBeBytes (beBytes n x) = x := by
  induction n generalizing x with
  | zero =>
      rw [Nat.pow_zero] at fits
      rw [show x = 0 by omega]
      rfl
  | succ n ih =>
      rw [Nat.pow_succ] at fits
      have low : (BitVec.ofNat 8 x).toNat = x % 256 := BitVec.toNat_ofNat ..
      have shorter := ih (x / 256) (by omega)
      rw [beBytes] at shorter ⊢
      rw [leBytes, List.reverse_cons, of_be_bytes_append, shorter, ofBeBytes, ofBeBytes, low, List.length_nil,
        List.length_singleton]
      omega

theorem be_bytes_of_be_bytes (bytes : List U8) : beBytes bytes.length (ofBeBytes bytes) = bytes := by
  induction bytes using List.reverseRecOn with
  | nil => rfl
  | append_singleton init byte ih =>
      have value : ofBeBytes (init ++ [byte]) = ofBeBytes init * 256 + byte.toNat := by
        rw [of_be_bytes_append, ofBeBytes, ofBeBytes, List.length_nil, Nat.pow_zero, Nat.mul_one]
        rfl
      have bound := byte.isLt
      have low : BitVec.ofNat 8 (ofBeBytes init * 256 + byte.toNat) = byte := by
        apply BitVec.eq_of_toNat_eq
        rw [BitVec.toNat_ofNat]
        omega
      rw [beBytes] at ih ⊢
      rw [List.length_append, List.length_singleton, leBytes, value, low, List.reverse_cons,
        show (ofBeBytes init * 256 + byte.toNat) / 256 = ofBeBytes init by omega, ih]

theorem le_bytes_inj (n x y : Nat) (boundX : x < 256 ^ n) (boundY : y < 256 ^ n)
    (same : leBytes n x = leBytes n y) : x = y := by
  have values := congrArg ofLeBytes same
  rwa [of_le_bytes_le_bytes, of_le_bytes_le_bytes, Nat.mod_eq_of_lt boundX, Nat.mod_eq_of_lt boundY] at values

theorem flat_map_bytes_inj {n : Nat} (a b : List (Bytes n)) (length : a.length = b.length)
    (same : a.flatMap List.Vector.toList = b.flatMap List.Vector.toList) : a = b := by
  induction a generalizing b with
  | nil => exact (List.length_eq_zero_iff.mp length.symm).symm
  | cons x xs ih =>
      cases b with
      | nil => cases length
      | cons y ys =>
          rw [List.flatMap_cons, List.flatMap_cons] at same
          obtain ⟨head, tail⟩ := List.append_inj same (by simp)
          rw [List.Vector.eq _ _ head, ih ys (Nat.succ.inj length) tail]

theorem length_flat_map_bytes {n : Nat} (a : List (Bytes n)) : (a.flatMap List.Vector.toList).length = a.length * n := by
  simp [List.length_flatMap]

theorem word_lt_bytes {n : Nat} (x : BitVec w) (fits : w ≤ 8 * n) : x.toNat < 256 ^ n := by
  have bound : 2 ^ w ≤ 2 ^ (8 * n) := Nat.pow_le_pow_right (by decide) fits
  rw [Nat.pow_mul] at bound
  exact Nat.lt_of_lt_of_le x.isLt bound

theorem le_bytes_word_inj {n : Nat} (x y : BitVec w) (fits : w ≤ 8 * n)
    (same : leBytes n x.toNat = leBytes n y.toNat) : x = y :=
  BitVec.eq_of_toNat_eq (le_bytes_inj n x.toNat y.toNat (word_lt_bytes x fits) (word_lt_bytes y fits) same)

end Words
