import PyGrove.Lib.Bech32

set_option autoImplicit false

/- What the checksum notices. Feeding symbols is linear, so whether an error
   shows depends on the error and on how many symbols come after it, not on the
   string it happens in. -/
namespace Bech32

def syndrome (errors : List Symbol) : BitVec 30 := errors.foldl step 0

def Shows (s : BitVec 30) : Prop := ∀ a b : Variant, s ≠ a.target ^^^ b.target

instance (s : BitVec 30) : Decidable (Shows s) :=
  decidable_of_iff (s ≠ 0 ∧ s ≠ Variant.bech32.target ^^^ Variant.bech32m.target)
    ⟨fun apart a b => by
      cases a <;> cases b <;> first | exact apart.1 | exact apart.2,
      fun shows => ⟨shows .bech32 .bech32, shows .bech32 .bech32m⟩⟩

theorem feed_difference (xs ys : List Symbol) (a b : BitVec 30) (same : xs.length = ys.length) :
    xs.foldl step a ^^^ ys.foldl step b = (List.zipWith (· ^^^ ·) xs ys).foldl step (a ^^^ b) := by
  induction xs generalizing ys a b with
  | nil =>
      rw [List.length_nil, eq_comm, List.length_eq_zero_iff] at same
      rw [same]
      rfl
  | cons x xs ih =>
      cases ys with
      | nil => cases same
      | cons y ys =>
          rw [List.foldl_cons, List.foldl_cons, ih ys _ _ (Nat.succ.inj same), List.zipWith_cons_cons, List.foldl_cons, step_xor]

theorem polymod_difference (front back xs ys : List Symbol) (same : xs.length = ys.length) :
    polymod (front ++ xs ++ back) ^^^ polymod (front ++ ys ++ back) =
      syndrome (List.zipWith (· ^^^ ·) xs ys ++ List.replicate back.length 0) := by
  have level : List.zipWith (· ^^^ ·) back back = List.replicate back.length (0 : Symbol) := by
    induction back with
    | nil => rfl
    | cons x back ih =>
        rw [List.zipWith_cons_cons, BitVec.xor_self, ih, List.length_cons, List.replicate_succ]
        rfl
  have fed : ∀ symbols, polymod (front ++ symbols) = symbols.foldl step (polymod front) := fun _ => List.foldl_append
  rw [List.append_assoc, List.append_assoc, fed, fed,
    feed_difference (xs ++ back) (ys ++ back) _ _ (by simp [same]), BitVec.xor_self, List.zipWith_append same, level]
  rfl

def showsFor : Nat → BitVec 30 → Bool
  | 0, _ => true
  | n + 1, s => decide (Shows s) && showsFor n (step s 0)

theorem shows_after (n k : Nat) (errors : List Symbol) (within : k < n) (checked : showsFor n (syndrome errors) = true) :
    Shows (syndrome (errors ++ List.replicate k 0)) := by
  rw [syndrome, List.foldl_append, ← syndrome]
  generalize syndrome errors = s at checked
  induction k generalizing n s with
  | zero =>
      obtain ⟨n, rfl⟩ := Nat.exists_eq_add_one.mpr within
      rw [showsFor, Bool.and_eq_true, decide_eq_true_iff] at checked
      exact checked.1
  | succ k ih =>
      obtain ⟨n, rfl⟩ := Nat.exists_eq_add_one.mpr (Nat.lt_of_le_of_lt (Nat.zero_le _) within)
      rw [showsFor, Bool.and_eq_true] at checked
      rw [List.replicate_succ, List.foldl_cons]
      exact ih n (Nat.lt_of_succ_lt_succ within) _ checked.2

theorem one_error_shows : ∀ e : Symbol, e ≠ 0 → showsFor 88 (syndrome [e]) = true := by decide +kernel

theorem swap_shows : ∀ e : Symbol, e ≠ 0 → showsFor 88 (syndrome [e, e]) = true := by decide +kernel

theorem replaced_symbol_shows (a b : Variant) (front back : List Symbol) (x y : Symbol) (short : back.length < 88)
    (apart : x ≠ y) (first : polymod (front ++ x :: back) = a.target) : polymod (front ++ y :: back) ≠ b.target := by
  intro second
  have error : x ^^^ y ≠ 0 := fun same => apart (BitVec.xor_eq_zero_iff.mp same)
  have difference := polymod_difference front back [x] [y] rfl
  rw [List.append_assoc, List.append_assoc, List.singleton_append, List.singleton_append, first, second] at difference
  exact shows_after 88 _ [x ^^^ y] short (one_error_shows _ error) a b difference.symm

theorem swapped_symbols_show (a b : Variant) (front back : List Symbol) (x y : Symbol) (short : back.length < 88)
    (apart : x ≠ y) (first : polymod (front ++ x :: y :: back) = a.target) :
    polymod (front ++ y :: x :: back) ≠ b.target := by
  intro second
  have error : x ^^^ y ≠ 0 := fun same => apart (BitVec.xor_eq_zero_iff.mp same)
  have difference := polymod_difference front back [x, y] [y, x] rfl
  rw [List.append_assoc, List.append_assoc] at difference
  simp only [List.cons_append, List.nil_append, first, second, List.zipWith_cons_cons, List.zipWith_nil_left] at difference
  rw [BitVec.xor_comm y x] at difference
  exact shows_after 88 _ [x ^^^ y, x ^^^ y] short (swap_shows _ error) a b difference.symm

end Bech32
