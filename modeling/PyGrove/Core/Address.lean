import PyGrove.Core.Tx
import PyGrove.Lib.Bech32

set_option autoImplicit false

namespace PyGrove.Core

open Words BitGroups Bech32

-- The bech32 crate. Its decode takes either checksum, encode writes the later
-- one. How much of a last, incomplete byte it lets pass is left open.
class Bech32Crate where
  decode : String → Except String (String × List U8)
  encode : String → List U8 → Except String String
  codeLength : ℕ
  passes : List Bool → Bool
  roomy : 90 ≤ codeLength
  passes_nil : passes [] = true
  decode_ok : ∀ s hrp data,
    decode s = .ok (hrp, data) ↔ Bech32.decode codeLength passes s.toList = some (hrp.toList, data)
  encode_ok : ∀ hrp data, LowerHrp hrp.toList → hrp.length + data.length * 8 / 5 + 9 ≤ codeLength →
    encode hrp data = .ok (String.ofList (Bech32.encode .bech32m hrp.toList data))

def addressHrp : String := "pyg"

def accountIdLen : Nat := 20

inductive AddressError where
  | decode (text : String)
  | wrongHrp (hrp : String)
  | wrongLength (length : Nat)
deriving DecidableEq

namespace AccountId

section
variable [Bech32Crate]

-- An error of encode would be a panic.
def toBech32 (id : AccountId) : Option String := (Bech32Crate.encode addressHrp id.id.toList).toOption

def fromBech32 (s : String) : Except AddressError AccountId :=
  match Bech32Crate.decode s with
  | .error e => .error (.decode e)
  | .ok (hrp, data) =>
      if hrp ≠ addressHrp then .error (.wrongHrp hrp)
      else if length : data.length = accountIdLen then .ok ⟨⟨data, length⟩⟩
      else .error (.wrongLength data.length)

end

end AccountId

theorem address_hrp_lower : LowerHrp addressHrp.toList where
  short := by decide
  printable := by decide
  lower := by
    have lower : addressHrp.toList.all (fun c => !c.isUpper) = true := by decide
    simpa using lower
  letter := ⟨'p', by simp [addressHrp], by decide⟩

section
variable [Bech32Crate]

theorem from_bech32_ok (s : String) (id : AccountId) :
    AccountId.fromBech32 s = .ok id ↔ Bech32Crate.decode s = .ok (addressHrp, id.id.toList) := by
  rw [AccountId.fromBech32]
  cases Bech32Crate.decode s with
  | error e => simp
  | ok found =>
      obtain ⟨hrp, data⟩ := found
      dsimp only
      by_cases prefixed : hrp = addressHrp
      · by_cases length : data.length = accountIdLen
        · rw [if_neg (not_not.mpr prefixed), dif_pos length, Except.ok.injEq, Except.ok.injEq, Prod.mk.injEq]
          constructor
          · rintro rfl
            exact ⟨prefixed, rfl⟩
          · rintro ⟨_, rfl⟩
            rfl
        · rw [if_neg (not_not.mpr prefixed), dif_neg length]
          simp only [reduceCtorEq, Except.ok.injEq, Prod.mk.injEq, false_iff, not_and]
          rintro _ rfl
          exact length id.id.toList_length
      · rw [if_pos prefixed]
        simp [prefixed]

theorem to_bech32_some (id : AccountId) (s : String) :
    id.toBech32 = some s ↔ s.toList = Bech32.encode .bech32m addressHrp.toList id.id.toList := by
  have room : addressHrp.length + id.id.toList.length * 8 / 5 + 9 ≤ Bech32Crate.codeLength := by
    rw [List.Vector.toList_length]
    exact le_trans (by decide) Bech32Crate.roomy
  rw [AccountId.toBech32, Bech32Crate.encode_ok _ _ address_hrp_lower room, Except.toOption, Option.some.injEq]
  constructor
  · rintro rfl
    exact String.toList_ofList
  · intro same
    rw [← same, String.ofList_toList]

def olderForm (id : AccountId) : List Char := Bech32.encode .bech32 addressHrp.toList id.id.toList

def surplusForm (variant : Variant) (id : AccountId) (symbol : Symbol) : List Char :=
  render variant addressHrp.toList (toSymbols id.id.toList ++ [symbol])

omit [Bech32Crate] in
theorem encode_address (variant : Variant) (id : AccountId) :
    Bech32.encode variant addressHrp.toList id.id.toList = render variant addressHrp.toList (toSymbols id.id.toList) := by
  rw [Bech32.encode, map_to_lower _ address_hrp_lower.lower]

omit [Bech32Crate] in
theorem address_bits (id : AccountId) : (toSymbols id.id.toList).flatMap bitsOf = id.id.toList.flatMap bitsOf := by
  have bits := symbols_bits id.id.toList
  rwa [List.Vector.toList_length, show (5 - 20 * 8 % 5) % 5 = 0 from rfl, List.replicate_zero, List.append_nil] at bits

omit [Bech32Crate] in
theorem held_address (id : AccountId) (symbols : List Symbol) (rest : List Bool)
    (held : symbols.flatMap bitsOf = id.id.toList.flatMap bitsOf ++ rest) (short : rest.length < 8) :
    (rest = [] ∧ symbols = toSymbols id.id.toList) ∨
      ∃ symbol : Symbol, rest = bitsOf symbol ∧ symbols = toSymbols id.id.toList ++ [symbol] := by
  have bits := address_bits id
  have length := congrArg List.length held
  have length' := congrArg List.length bits
  rw [List.length_append, length_flat_bits, length_flat_bits, List.Vector.toList_length] at length
  rw [length_flat_bits, length_flat_bits, List.Vector.toList_length] at length'
  by_cases none : rest.length = 0
  · have empty := List.length_eq_zero_iff.mp none
    refine .inl ⟨empty, flat_bits_inj _ _ (by omega) ?_⟩
    rw [held, bits, empty, List.append_nil]
  · have five : rest.length = 5 := by omega
    refine .inr ⟨ofBits 5 rest, (bits_of_bits rest five).symm, flat_bits_inj _ _ ?_ ?_⟩
    · rw [List.length_append, List.length_singleton]
      omega
    · rw [held, List.flatMap_append, bits, List.flatMap_singleton, bits_of_bits rest five]

theorem accepted_iff (s : String) (id : AccountId) :
    AccountId.fromBech32 s = .ok id ↔
      (∃ variant, s.toList = Bech32.encode variant addressHrp.toList id.id.toList) ∨
        ∃ variant symbol, Bech32Crate.passes (bitsOf symbol) = true ∧ s.toList = surplusForm variant id symbol := by
  have room : addressHrp.toList.length + id.id.toList.length * 8 / 5 + 9 ≤ Bech32Crate.codeLength := by
    rw [List.Vector.toList_length]
    exact le_trans (by decide) Bech32Crate.roomy
  have bits := address_bits id
  rw [from_bech32_ok, Bech32Crate.decode_ok, decode_lower_iff _ _ _ _ _ address_hrp_lower room]
  constructor
  · rintro ⟨variant, symbols, spelled, rest, held, short, passes⟩
    rcases held_address id symbols rest held short with ⟨rfl, rfl⟩ | ⟨symbol, rfl, rfl⟩
    · exact .inl ⟨variant, spelled.trans (encode_address variant id).symm⟩
    · exact .inr ⟨variant, symbol, passes, spelled⟩
  · rintro (⟨variant, spelled⟩ | ⟨variant, symbol, passes, spelled⟩)
    · refine ⟨variant, _, spelled.trans (encode_address variant id), [], ?_, by decide, Bech32Crate.passes_nil⟩
      rw [bits, List.append_nil]
    · refine ⟨variant, _, spelled, bitsOf symbol, ?_, by rw [length_bits]; decide, passes⟩
      rw [List.flatMap_append, bits, List.flatMap_singleton]

def OneString (s : String) : Prop := ∀ id, AccountId.fromBech32 s = .ok id ↔ id.toBech32 = some s

theorem one_string_iff (s : String) :
    OneString s ↔ (∀ id, s.toList ≠ olderForm id) ∧
      ∀ variant id symbol, Bech32Crate.passes (bitsOf symbol) = true → s.toList ≠ surplusForm variant id symbol := by
  constructor
  · intro one
    constructor
    · intro id older
      have written := (to_bech32_some id s).mp ((one id).mp ((accepted_iff s id).mpr (.inl ⟨.bech32, older⟩)))
      rw [older, olderForm, encode_address, encode_address] at written
      exact absurd (render_inj _ _ _ _ _ written).1 (by decide)
    · intro variant id symbol passes surplus
      have written := (to_bech32_some id s).mp ((one id).mp ((accepted_iff s id).mpr (.inr ⟨variant, symbol, passes, surplus⟩)))
      rw [surplus, surplusForm, encode_address] at written
      have length := congrArg List.length (render_inj _ _ _ _ _ written).2
      rw [List.length_append, List.length_singleton] at length
      omega
  · rintro ⟨notOlder, notSurplus⟩ id
    rw [to_bech32_some, accepted_iff]
    constructor
    · rintro (⟨variant, spelled⟩ | ⟨variant, symbol, passes, spelled⟩)
      · cases variant with
        | bech32 => exact absurd spelled (notOlder id)
        | bech32m => exact spelled
      · exact absurd spelled (notSurplus variant id symbol passes)
    · exact fun spelled => .inl ⟨.bech32m, spelled⟩

omit [Bech32Crate] in
theorem zero_padding_no_surplus (symbol : Symbol) : zeroPadding (bitsOf symbol) = false := by
  simp [zeroPadding]

end

end PyGrove.Core

namespace PyGrove.Sample

open Words Bech32 PyGrove.Core

@[reducible] def addressCrate (passes : List Bool → Bool) (passes_nil : passes [] = true) : Bech32Crate where
  decode := fun s =>
    match Bech32.decode 1023 passes s.toList with
    | none => .error "decode"
    | some (hrp, data) => .ok (String.ofList hrp, data)
  encode := fun hrp data => .ok (String.ofList (Bech32.encode .bech32m hrp.toList data))
  codeLength := 1023
  passes := passes
  roomy := by decide
  passes_nil := passes_nil
  decode_ok := by
    intro s hrp data
    cases Bech32.decode 1023 passes s.toList with
    | none => simp
    | some found =>
        obtain ⟨hrp', data'⟩ := found
        have named : String.ofList hrp' = hrp ↔ hrp' = hrp.toList := by
          constructor
          · rintro rfl
            exact String.toList_ofList.symm
          · rintro rfl
            exact String.ofList_toList
        simp only [Except.ok.injEq, Prod.mk.injEq, Option.some.injEq, named]
  encode_ok := fun _ _ _ _ => rfl

scoped instance zeroPadded : Bech32Crate := addressCrate zeroPadding rfl

end PyGrove.Sample

namespace PyGrove.Core

open Sample

example : @AccountId.fromBech32 (addressCrate (fun _ => true) rfl) "bc1qw508d6qejxtdg4y5r3zarvary0c5xw7kv8f3t4" =
    .error (.wrongHrp "bc") := by decide +kernel

theorem older_checksum_accepted :
    AccountId.fromBech32 "pyg1qqqqqqqqqqqqqqqqqqqqqqqqqqqqqqqq5elvt2" = .ok ⟨.replicate 20 0⟩ ∧
      AccountId.toBech32 ⟨.replicate 20 0⟩ = some "pyg1qqqqqqqqqqqqqqqqqqqqqqqqqqqqqqqqp90qwg" ∧
      ¬ OneString "pyg1qqqqqqqqqqqqqqqqqqqqqqqqqqqqqqqq5elvt2" := by
  have taken : AccountId.fromBech32 "pyg1qqqqqqqqqqqqqqqqqqqqqqqqqqqqqqqq5elvt2" = .ok ⟨.replicate 20 0⟩ := by decide +kernel
  have written : AccountId.toBech32 ⟨.replicate 20 0⟩ = some "pyg1qqqqqqqqqqqqqqqqqqqqqqqqqqqqqqqqp90qwg" := by
    decide +kernel
  refine ⟨taken, written, ?_⟩
  intro one
  have other := (one _).mp taken
  rw [written] at other
  exact absurd other (by decide)

end PyGrove.Core
