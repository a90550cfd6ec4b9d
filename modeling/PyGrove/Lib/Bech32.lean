import PyGrove.Lib.BitGroups
import PyGrove.Lib.Words

set_option autoImplicit false

/- Bech32 strings: a human-readable part, the digit 1, and five-bit symbols of
   which the last six are a checksum. Bech32m is the later form, which differs
   in the constant the checksum is taken against. -/
namespace Bech32

open Words BitGroups

abbrev Symbol := BitVec 5

inductive Variant where
  | bech32
  | bech32m
deriving DecidableEq

def Variant.target : Variant → BitVec 30
  | .bech32 => 1
  | .bech32m => 0x2bc830a3

theorem target_inj (a b : Variant) (same : a.target = b.target) : a = b := by
  cases a <;> cases b <;> first | rfl | exact absurd same (by decide)

def feedback (top : Bool) (generator : BitVec 30) : BitVec 30 := if top then generator else 0#30

def step (state : BitVec 30) (symbol : Symbol) : BitVec 30 :=
  (state.setWidth 25 ++ symbol : BitVec 30) ^^^
    (feedback (state.getLsbD 25) 0x3b6a57b2 ^^^ (feedback (state.getLsbD 26) 0x26508e6d ^^^
      (feedback (state.getLsbD 27) 0x1ea119fa ^^^ (feedback (state.getLsbD 28) 0x3d4233dd ^^^
        feedback (state.getLsbD 29) 0x2a1462b3))))

def polymod (symbols : List Symbol) : BitVec 30 := symbols.foldl step 1

def checksum (variant : Variant) (values : List Symbol) : List Symbol :=
  groups 5 6 (bitsOf (polymod (values ++ List.replicate 6 0#5) ^^^ variant.target))

theorem feedback_xor (a b : Bool) (generator : BitVec 30) :
    feedback (a ^^ b) generator = feedback a generator ^^^ feedback b generator := by
  cases a <;> cases b <;> simp [feedback]

theorem step_xor (a b : BitVec 30) (x y : Symbol) : step (a ^^^ b) (x ^^^ y) = step a x ^^^ step b y := by
  have shifted : ((a ^^^ b).setWidth 25 ++ (x ^^^ y) : BitVec 30) =
      (a.setWidth 25 ++ x : BitVec 30) ^^^ (b.setWidth 25 ++ y : BitVec 30) := by
    rw [BitVec.setWidth_xor, ← BitVec.xor_append]
  simp only [step, shifted, BitVec.getLsbD_xor, feedback_xor]
  ac_rfl

theorem feed_xor (symbols : List Symbol) (a b : BitVec 30) :
    symbols.foldl step (a ^^^ b) = (List.replicate symbols.length 0#5).foldl step a ^^^ symbols.foldl step b := by
  induction symbols generalizing a b with
  | nil => rfl
  | cons symbol symbols ih =>
      have moved := step_xor a b 0#5 symbol
      rw [BitVec.zero_xor] at moved
      rw [List.foldl_cons, moved, ih, List.length_cons, List.replicate_succ, List.foldl_cons, List.foldl_cons]

theorem step_append {m : Nat} (low : BitVec m) (symbol : Symbol) (room : m ≤ 25) :
    step (low.setWidth 30) symbol = (low ++ symbol).setWidth 30 := by
  have empty : ∀ i, 25 ≤ i → (low.setWidth 30).getLsbD i = false := by
    intro i above
    rw [BitVec.getLsbD_setWidth, BitVec.getLsbD_of_ge low i (by omega), Bool.and_false]
  have shifted : ((low.setWidth 30).setWidth 25 ++ symbol : BitVec 30) = (low ++ symbol).setWidth 30 := by
    apply BitVec.eq_of_getLsbD_eq
    intro i bound
    have low : i - 5 < 25 := by omega
    have inside : i - 5 < 30 := by omega
    simp only [BitVec.getLsbD_append, BitVec.getLsbD_setWidth, low, inside, bound, decide_true, Bool.true_and]
  simp only [step, shifted, empty 25 (by decide), empty 26 (by decide), empty 27 (by decide), empty 28 (by decide),
    empty 29 (by decide), feedback, Bool.false_eq_true, if_false, BitVec.xor_zero]

theorem feed_six (symbols : List Symbol) (six : symbols.length = 6) :
    bitsOf (symbols.foldl step 0#30) = symbols.flatMap bitsOf := by
  match symbols, six with
  | [a, b, c, d, e, f], _ =>
      have filled : [a, b, c, d, e, f].foldl step 0#30 = a ++ b ++ c ++ d ++ e ++ f := by
        have first : step 0#30 a = a.setWidth 30 := by
          have moved := step_append 0#0 a (by decide)
          rw [BitVec.setWidth_zero] at moved
          rw [moved, BitVec.zero_width_append, BitVec.setWidth_cast]
        rw [List.foldl_cons, first, List.foldl_cons, step_append a b (by decide), List.foldl_cons, step_append _ c (by decide),
          List.foldl_cons, step_append _ d (by decide), List.foldl_cons, step_append _ e (by decide), List.foldl_cons,
          step_append _ f (by decide), List.foldl_nil, BitVec.setWidth_eq]
      simp only [filled, bits_append, List.flatMap_cons, List.flatMap_nil, List.append_nil, List.append_assoc]

theorem verifies_iff (variant : Variant) (values check : List Symbol) (six : check.length = 6) :
    polymod (values ++ check) = variant.target ↔ check = checksum variant values := by
  have linear : polymod (values ++ check) = polymod (values ++ List.replicate 6 0#5) ^^^ check.foldl step 0#30 := by
    have fed := feed_xor check (values.foldl step 1) 0#30
    rw [BitVec.xor_zero, six] at fed
    rw [polymod, polymod, List.foldl_append, List.foldl_append, fed]
  have bits := feed_six check six
  rw [linear, checksum]
  constructor
  · intro verified
    have filled : check.foldl step 0#30 = polymod (values ++ List.replicate 6 0#5) ^^^ variant.target := by
      rw [← verified, ← BitVec.xor_assoc, BitVec.xor_self, BitVec.zero_xor]
    rw [← filled, bits]
    have back := groups_bits check []
    rw [six, List.append_nil] at back
    exact back.symm
  · intro made
    have flat := bits_groups (w := 5) 6 (bitsOf (polymod (values ++ List.replicate 6 0#5) ^^^ variant.target)) (by simp)
    rw [← made, ← bits, List.take_of_length_le (by simp)] at flat
    have filled : check.foldl step 0#30 = polymod (values ++ List.replicate 6 0#5) ^^^ variant.target := by
      rw [← of_bits_bits (check.foldl step 0#30), flat, of_bits_bits]
    rw [filled, ← BitVec.xor_assoc, BitVec.xor_self, BitVec.zero_xor]

theorem checksum_length (variant : Variant) (values : List Symbol) : (checksum variant values).length = 6 := length_groups ..

theorem checksum_variant_inj (a b : Variant) (values : List Symbol) (same : checksum a values = checksum b values) : a = b := by
  have first := (verifies_iff a values _ (checksum_length a values)).mpr rfl
  have second := (verifies_iff b values _ (checksum_length b values)).mpr rfl
  rw [same] at first
  exact target_inj a b (first.symm.trans second)

def toSymbols (data : List U8) : List Symbol :=
  let bits := data.flatMap bitsOf
  let padded := bits ++ List.replicate ((5 - bits.length % 5) % 5) false
  groups 5 (padded.length / 5) padded

-- The bits left over after the last whole byte are dropped, where the given
-- rule lets them pass.
def toBytes (passes : List Bool → Bool) (symbols : List Symbol) : Option (List U8) :=
  let bits := symbols.flatMap bitsOf
  if passes (bits.drop (bits.length / 8 * 8)) then some (groups 8 (bits.length / 8) bits) else none

def zeroPadding (rest : List Bool) : Bool := decide (rest.length ≤ 4) && rest.all fun bit => !bit

theorem symbols_bits (data : List U8) :
    (toSymbols data).flatMap bitsOf = data.flatMap bitsOf ++ List.replicate ((5 - data.length * 8 % 5) % 5) false := by
  have length := length_flat_bits data
  have whole : (data.length * 8 + (5 - data.length * 8 % 5) % 5) / 5 * 5 = data.length * 8 + (5 - data.length * 8 % 5) % 5 := by
    omega
  simp only [toSymbols, length]
  rw [bits_groups, List.take_of_length_le]
  · simp only [List.length_append, length, List.length_replicate, whole, Nat.le_refl]
  · simp only [List.length_append, length, List.length_replicate, whole, Nat.le_refl]

theorem to_bytes_iff (passes : List Bool → Bool) (symbols : List Symbol) (data : List U8) :
    toBytes passes symbols = some data ↔
      ∃ rest : List Bool, symbols.flatMap bitsOf = data.flatMap bitsOf ++ rest ∧ rest.length < 8 ∧ passes rest = true := by
  simp only [toBytes]
  constructor
  · intro decoded
    split at decoded
    · rename_i passed
      cases decoded
      refine ⟨_, ?_, ?_, passed⟩
      · rw [bits_groups _ _ (Nat.div_mul_le_self _ _), List.take_append_drop]
      · rw [List.length_drop]
        omega
    · cases decoded
  · rintro ⟨rest, held, short, passed⟩
    have length := length_flat_bits data
    have whole : (symbols.flatMap bitsOf).length / 8 = data.length := by
      rw [held, List.length_append, length]
      omega
    have left : (symbols.flatMap bitsOf).drop (data.length * 8) = rest := by rw [held, ← length, List.drop_left]
    rw [whole, left, if_pos passed, held, groups_bits]

def charset : List Char := "qpzry9x8gf2tvdw0s3jn54khce6mua7l".toList

def toChar (symbol : Symbol) : Char := charset.getD symbol.toNat 'q'

def fromChar (c : Char) : Option Symbol := (charset.findIdx? fun other => other = c).map (BitVec.ofNat 5)

theorem from_to_char : ∀ symbol : Symbol, fromChar (toChar symbol) = some symbol := by decide +kernel

theorem to_from_char (c : Char) (symbol : Symbol) (read : fromChar c = some symbol) : toChar symbol = c := by
  simp only [fromChar, Option.map_eq_some_iff, List.findIdx?_eq_some_iff_getElem] at read
  obtain ⟨index, ⟨inside, found, _⟩, rfl⟩ := read
  have small : index < 32 := inside
  rw [toChar, BitVec.toNat_ofNat, Nat.mod_eq_of_lt small, List.getD_eq_getElem?_getD, List.getElem?_eq_getElem inside]
  exact of_decide_eq_true found

def Printable (c : Char) : Prop := 33 ≤ c.toNat ∧ c.toNat ≤ 126

instance (c : Char) : Decidable (Printable c) := inferInstanceAs (Decidable (_ ∧ _))

theorem to_char_plain : ∀ symbol : Symbol, Printable (toChar symbol) ∧ (toChar symbol).isUpper = false ∧
    (toChar symbol).toLower = toChar symbol ∧ toChar symbol ≠ '1' := by decide +kernel

def AllPrintable (s : List Char) : Prop := ∀ c ∈ s, Printable c

-- Decided along the string: there is also an instance that goes through every
-- character there is.
instance (s : List Char) : Decidable (AllPrintable s) := List.decidableBAll _ _

def MixedCase (s : List Char) : Prop := (∃ c ∈ s, c.isLower = true) ∧ ∃ c ∈ s, c.isUpper = true

instance (s : List Char) : Decidable (MixedCase s) := @instDecidableAnd _ _ (List.decidableBEx _ _) (List.decidableBEx _ _)

def splitLast (s : List Char) : Option (List Char × List Char) :=
  match s.reverse.dropWhile (· ≠ '1') with
  | [] => none
  | _ :: head => some (head.reverse, (s.reverse.takeWhile (· ≠ '1')).reverse)

theorem split_last_iff (s head tail : List Char) : splitLast s = some (head, tail) ↔ s = head ++ '1' :: tail ∧ '1' ∉ tail := by
  have cut := List.takeWhile_append_dropWhile (p := (· ≠ '1')) (l := s.reverse)
  have stops := List.head?_dropWhile_not (· ≠ '1') s.reverse
  constructor
  · intro split
    simp only [splitLast] at split
    split at split
    · cases split
    · rename_i found front rest
      cases split
      rw [rest] at cut stops
      have delimiter : found = '1' := by simpa using stops
      rw [delimiter] at cut
      constructor
      · have back := congrArg List.reverse cut
        rw [List.reverse_append, List.reverse_cons, List.append_assoc, List.singleton_append, List.reverse_reverse] at back
        exact back.symm
      · intro member
        have passed := List.all_eq_true.mp (List.all_takeWhile (l := s.reverse)) '1' (List.mem_reverse.mp member)
        simp at passed
  · rintro ⟨rfl, free⟩
    have passes : ∀ c ∈ tail.reverse, (decide (c ≠ '1')) = true := by
      intro c member
      exact decide_eq_true fun same => free (by rw [← same]; exact List.mem_reverse.mp member)
    simp only [splitLast, List.reverse_append, List.reverse_cons, List.append_assoc, List.singleton_append]
    rw [List.dropWhile_append_of_pos passes, List.takeWhile_append_of_pos passes]
    simp

def expand (hrp : List Char) : List Symbol :=
  hrp.map (fun c => BitVec.ofNat 5 (c.toNat / 32)) ++ 0 :: hrp.map fun c => BitVec.ofNat 5 c.toNat

def render (variant : Variant) (hrp : List Char) (symbols : List Symbol) : List Char :=
  hrp ++ '1' :: (symbols ++ checksum variant (expand hrp ++ symbols)).map toChar

def encode (variant : Variant) (hrp : List Char) (data : List U8) : List Char :=
  render variant (hrp.map Char.toLower) (toSymbols data)

-- Either checksum is taken. The part before the data is given back as it was
-- spelled.
def decode (limit : Nat) (passes : List Bool → Bool) (s : List Char) : Option (List Char × List U8) :=
  if s.length ≤ limit ∧ AllPrintable s ∧ ¬ MixedCase s then do
    let (hrp, tail) ← splitLast s
    if hrp ≠ [] ∧ hrp.length ≤ 83 then do
      let symbols ← tail.mapM fun c => fromChar c.toLower
      let residue := polymod (expand (hrp.map Char.toLower) ++ symbols)
      if 6 ≤ symbols.length ∧ (residue = Variant.bech32m.target ∨ residue = Variant.bech32.target) then
        (toBytes passes (symbols.take (symbols.length - 6))).map fun data => (hrp, data)
      else none
    else none
  else none

structure LowerHrp (hrp : List Char) : Prop where
  short : hrp.length ≤ 83
  printable : AllPrintable hrp
  lower : ∀ c ∈ hrp, c.isUpper = false
  letter : ∃ c ∈ hrp, c.isLower = true

theorem to_lower_of_not_upper (c : Char) (lower : c.isUpper = false) : c.toLower = c := by
  have outside : ¬ (c.val ≥ 'A'.val ∧ c.val ≤ 'Z'.val) := of_decide_eq_false lower
  exact dif_neg outside

theorem map_to_lower (s : List Char) (lower : ∀ c ∈ s, c.isUpper = false) : s.map Char.toLower = s :=
  (List.map_congr_left fun c member => to_lower_of_not_upper c (lower c member)).trans (List.map_id s)

theorem read_symbols_iff (tail : List Char) (symbols : List Symbol) (lower : ∀ c ∈ tail, c.isUpper = false) :
    (tail.mapM fun c => fromChar c.toLower) = some symbols ↔ tail = symbols.map toChar := by
  induction tail generalizing symbols with
  | nil =>
      rw [List.mapM_nil, Option.pure_def, Option.some.injEq]
      cases symbols with
      | nil => simp
      | cons symbol symbols => simp
  | cons c tail ih =>
      have same := to_lower_of_not_upper c (lower c (by simp))
      have rest := fun symbols => ih symbols fun other member => lower other (by simp [member])
      simp only [List.mapM_cons, same, Option.bind_eq_bind, Option.bind_eq_some_iff, Option.pure_def, Option.some.injEq, rest]
      constructor
      · rintro ⟨symbol, read, symbols, rfl, rfl⟩
        rw [List.map_cons, to_from_char c symbol read]
      · intro made
        cases symbols with
        | nil => cases made
        | cons symbol symbols =>
            obtain ⟨rfl, rfl⟩ := List.cons.inj made
            exact ⟨symbol, from_to_char symbol, symbols, rfl, rfl⟩

theorem render_chars (variant : Variant) (hrp : List Char) (symbols : List Symbol) (c : Char)
    (member : c ∈ render variant hrp symbols) : c ∈ hrp ∨ c = '1' ∨ ∃ symbol, c = toChar symbol := by
  rw [render, List.mem_append, List.mem_cons, List.mem_map] at member
  rcases member with within | delimiter | ⟨symbol, _, rfl⟩
  · exact .inl within
  · exact .inr (.inl delimiter)
  · exact .inr (.inr ⟨symbol, rfl⟩)

theorem render_lower (variant : Variant) (hrp : List Char) (symbols : List Symbol) (lower : LowerHrp hrp) (c : Char)
    (member : c ∈ render variant hrp symbols) : Printable c ∧ c.isUpper = false := by
  rcases render_chars variant hrp symbols c member with within | rfl | ⟨symbol, rfl⟩
  · exact ⟨lower.printable c within, lower.lower c within⟩
  · decide
  · exact ⟨(to_char_plain symbol).1, (to_char_plain symbol).2.1⟩

theorem length_render (variant : Variant) (hrp : List Char) (symbols : List Symbol) :
    (render variant hrp symbols).length = hrp.length + symbols.length + 7 := by
  rw [render, List.length_append, List.length_cons, List.length_map, List.length_append, checksum_length]
  omega

theorem decode_iff (limit : Nat) (passes : List Bool → Bool) (s hrp : List Char) (data : List U8) :
    decode limit passes s = some (hrp, data) ↔
      (s.length ≤ limit ∧ AllPrintable s ∧ ¬ MixedCase s) ∧ (hrp ≠ [] ∧ hrp.length ≤ 83) ∧
        ∃ tail symbols, s = hrp ++ '1' :: tail ∧ '1' ∉ tail ∧ (tail.mapM fun c => fromChar c.toLower) = some symbols ∧
          6 ≤ symbols.length ∧ (∃ variant : Variant, polymod (expand (hrp.map Char.toLower) ++ symbols) = variant.target) ∧
          toBytes passes (symbols.take (symbols.length - 6)) = some data := by
  simp only [decode, Option.ite_none_right_eq_some, Option.bind_eq_bind, Option.bind_eq_some_iff, Option.map_eq_some_iff,
    Prod.exists, split_last_iff]
  constructor
  · rintro ⟨plain, hrp, tail, ⟨rfl, free⟩, sized, symbols, read, ⟨six, residue⟩, data, bytes, same⟩
    cases same
    refine ⟨plain, sized, tail, symbols, rfl, free, read, six, ?_, bytes⟩
    rcases residue with later | older
    · exact ⟨.bech32m, later⟩
    · exact ⟨.bech32, older⟩
  · rintro ⟨plain, sized, tail, symbols, rfl, free, read, six, ⟨variant, residue⟩, bytes⟩
    refine ⟨plain, hrp, tail, ⟨rfl, free⟩, sized, symbols, read, ⟨six, ?_⟩, data, bytes, rfl⟩
    cases variant with
    | bech32 => exact .inr residue
    | bech32m => exact .inl residue

theorem decode_lower_iff (limit : Nat) (passes : List Bool → Bool) (s hrp : List Char) (data : List U8) (lower : LowerHrp hrp)
    (room : hrp.length + data.length * 8 / 5 + 9 ≤ limit) :
    decode limit passes s = some (hrp, data) ↔
      ∃ variant symbols, s = render variant hrp symbols ∧
        ∃ rest : List Bool, symbols.flatMap bitsOf = data.flatMap bitsOf ++ rest ∧ rest.length < 8 ∧ passes rest = true := by
  simp only [decode_iff, map_to_lower hrp lower.lower, to_bytes_iff]
  constructor
  · rintro ⟨⟨_, _, unmixed⟩, _, tail, symbols, rfl, free, read, six, ⟨variant, residue⟩, held⟩
    have small : ∀ c ∈ tail, c.isUpper = false := by
      intro c member
      by_contra upper
      obtain ⟨letter, within, isLower⟩ := lower.letter
      exact unmixed ⟨⟨letter, by simp [within], isLower⟩, c, by simp [member], by simpa using upper⟩
    rw [read_symbols_iff tail symbols small] at read
    have cut := List.take_append_drop (symbols.length - 6) symbols
    rw [← cut, ← List.append_assoc, verifies_iff variant _ _ (by rw [List.length_drop]; omega)] at residue
    refine ⟨variant, symbols.take (symbols.length - 6), ?_, held⟩
    rw [render, ← residue, cut, ← read]
  · rintro ⟨variant, symbols, rfl, held⟩
    have plain := render_lower variant hrp symbols lower
    have tail : ∀ c ∈ (symbols ++ checksum variant (expand hrp ++ symbols)).map toChar, c.isUpper = false ∧ c ≠ '1' := by
      intro c member
      obtain ⟨symbol, _, rfl⟩ := List.mem_map.mp member
      exact ⟨(to_char_plain symbol).2.1, (to_char_plain symbol).2.2.2⟩
    obtain ⟨letter, within, _⟩ := lower.letter
    refine ⟨⟨?_, fun c member => (plain c member).1, ?_⟩, ⟨List.ne_nil_of_mem within, lower.short⟩, _, _, rfl,
      fun member => (tail '1' member).2 rfl,
      (read_symbols_iff _ (symbols ++ checksum variant (expand hrp ++ symbols)) fun c member => (tail c member).1).mpr rfl, ?_,
      ⟨variant, ?_⟩, ?_⟩
    · obtain ⟨rest, bits, short, _⟩ := held
      have length := congrArg List.length bits
      rw [List.length_append, length_flat_bits, length_flat_bits] at length
      rw [length_render]
      omega
    · rintro ⟨_, c, member, upper⟩
      rw [(plain c member).2] at upper
      cases upper
    · rw [List.length_append, checksum_length]
      omega
    · rw [← List.append_assoc]
      exact (verifies_iff variant _ _ (checksum_length ..)).mpr rfl
    · rwa [List.length_append, checksum_length, Nat.add_sub_cancel, List.take_left']
      rfl

theorem to_char_inj (a b : Symbol) (same : toChar a = toChar b) : a = b := by
  have read := from_to_char a
  rw [same, from_to_char b] at read
  exact (Option.some.inj read).symm

theorem render_inj (a b : Variant) (hrp : List Char) (x y : List Symbol) (same : render a hrp x = render b hrp y) :
    a = b ∧ x = y := by
  rw [render, render] at same
  have tails := (List.cons.inj (List.append_cancel_left same)).2
  have symbols := List.map_injective_iff.mpr (fun a b => to_char_inj a b) tails
  have length := congrArg List.length symbols
  rw [List.length_append, List.length_append, checksum_length, checksum_length] at length
  obtain ⟨rfl, checks⟩ := List.append_inj symbols (by omega)
  exact ⟨checksum_variant_inj a b _ checks, rfl⟩

end Bech32
