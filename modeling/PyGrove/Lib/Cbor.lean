import Mathlib.Data.Nat.Digits.Defs
import PyGrove.Lib.Codec

set_option autoImplicit false

/- CBOR in the layout that serde writes: structs are maps from field names,
   enum variants are maps with one entry, fixed arrays are arrays. A wire
   format reads its own output back and leaves what follows it, so formats
   compose in sequence. -/
namespace Cbor

open Words

structure Wire (α : Type) where
  encode : α → List U8
  parse : List U8 → Except String (α × List U8)
  parse_encode : ∀ value rest, parse (encode value ++ rest) = .ok (value, rest)

variable {α β : Type}

def Wire.codec (wire : Wire α) : Codec α where
  encode := wire.encode
  decode := fun input =>
    match wire.parse input with
    | .error e => .error e
    | .ok (value, _) => .ok value
  decode_encode := by
    intro value
    have parsed := wire.parse_encode value []
    rw [List.append_nil] at parsed
    rw [parsed]

def stripPrefix : List U8 → List U8 → Option (List U8)
  | [], input => some input
  | _ :: _, [] => none
  | expected :: literal, byte :: input => if expected = byte then stripPrefix literal input else none

theorem strip_prefix_append (literal rest : List U8) : stripPrefix literal (literal ++ rest) = some rest := by
  induction literal with
  | nil => rfl
  | cons byte tail ih => rw [List.cons_append, stripPrefix, if_pos rfl, ih]

def diverge : List U8 → List U8 → Bool
  | a :: as, b :: bs => a ≠ b || diverge as bs
  | _, _ => false

theorem strip_prefix_diverge (literal other rest : List U8) (apart : diverge literal other) :
    stripPrefix literal (other ++ rest) = none := by
  induction literal generalizing other with
  | nil => cases apart
  | cons a as ih =>
      cases other with
      | nil => cases apart
      | cons b bs =>
          rw [List.cons_append, stripPrefix]
          by_cases same : a = b
          · rw [if_pos same]
            exact ih bs (by simpa [diverge, same] using apart)
          · rw [if_neg same]

def Wire.after (wire : Wire α) (literal : List U8) : Wire α where
  encode := fun value => literal ++ wire.encode value
  parse := fun input =>
    match stripPrefix literal input with
    | none => .error "unexpected bytes"
    | some rest => wire.parse rest
  parse_encode := by
    intro value rest
    rw [List.append_assoc, strip_prefix_append]
    exact wire.parse_encode value rest

def Wire.both (first : Wire α) (second : Wire β) : Wire (α × β) where
  encode := fun pair => first.encode pair.1 ++ second.encode pair.2
  parse := fun input =>
    match first.parse input with
    | .error e => .error e
    | .ok (a, rest) =>
        match second.parse rest with
        | .error e => .error e
        | .ok (b, rest) => .ok ((a, b), rest)
  parse_encode := by
    intro pair rest
    rw [List.append_assoc, first.parse_encode]
    dsimp only
    rw [second.parse_encode]

def Wire.mapped (wire : Wire α) (build : α → Except String β) (read : β → α)
    (build_read : ∀ value, build (read value) = .ok value) : Wire β where
  encode := fun value => wire.encode (read value)
  parse := fun input =>
    match wire.parse input with
    | .error e => .error e
    | .ok (a, rest) =>
        match build a with
        | .error e => .error e
        | .ok b => .ok (b, rest)
  parse_encode := by
    intro value rest
    rw [wire.parse_encode]
    dsimp only
    rw [build_read]

def Wire.iso (wire : Wire α) (build : α → β) (read : β → α) (build_read : ∀ value, build (read value) = value) :
    Wire β :=
  wire.mapped (fun a => .ok (build a)) read fun value => congrArg Except.ok (build_read value)

def Refuses (first : Wire α) (second : Wire β) : Prop :=
  ∀ value rest, ∃ e, first.parse (second.encode value ++ rest) = .error e

def Wire.orElse (first : Wire α) (second : Wire β) (refuses : Refuses first second) : Wire (α ⊕ β) where
  encode := fun value =>
    match value with
    | .inl a => first.encode a
    | .inr b => second.encode b
  parse := fun input =>
    match first.parse input with
    | .ok (a, rest) => .ok (.inl a, rest)
    | .error _ =>
        match second.parse input with
        | .ok (b, rest) => .ok (.inr b, rest)
        | .error e => .error e
  parse_encode := by
    intro value rest
    cases value with
    | inl a =>
        dsimp only
        rw [first.parse_encode]
    | inr b =>
        obtain ⟨e, refused⟩ := refuses b rest
        dsimp only
        rw [refused]
        dsimp only
        rw [second.parse_encode]

section Choice
variable {ι : Type} (literal : ι → List U8) (payload : ι → Type) (wire : ∀ i, Wire (payload i))

def parseChoice (input : List U8) : List ι → Except String (Sigma payload × List U8)
  | [] => .error "unknown variant"
  | i :: others =>
      match stripPrefix (literal i) input with
      | none => parseChoice input others
      | some rest =>
          match (wire i).parse rest with
          | .error e => .error e
          | .ok (value, rest) => .ok (⟨i, value⟩, rest)

theorem parse_choice_encode (tags : List ι) (i : ι) (value : payload i) (rest : List U8) (listed : i ∈ tags)
    (apart : ∀ j, j ≠ i → diverge (literal j) (literal i)) :
    parseChoice literal payload wire (literal i ++ ((wire i).encode value ++ rest)) tags = .ok (⟨i, value⟩, rest) := by
  induction tags with
  | nil => cases listed
  | cons j others ih =>
      by_cases same : j = i
      · subst same
        rw [parseChoice, strip_prefix_append]
        dsimp only
        rw [(wire j).parse_encode]
      · rw [parseChoice, strip_prefix_diverge _ _ _ (apart j same)]
        exact ih ((List.mem_cons.mp listed).resolve_left (Ne.symm same))

def choice (tags : List ι) (complete : ∀ i, i ∈ tags) (apart : ∀ i j, j ≠ i → diverge (literal j) (literal i)) :
    Wire (Sigma payload) where
  encode := fun value => literal value.1 ++ (wire value.1).encode value.2
  parse := fun input => parseChoice literal payload wire input tags
  parse_encode := by
    intro value rest
    rw [List.append_assoc]
    exact parse_choice_encode literal payload wire tags value.1 value.2 rest (complete value.1) (apart value.1)

end Choice

def takeBytes (n : Nat) (input : List U8) : Except String (List U8 × List U8) :=
  if n ≤ input.length then .ok (input.take n, input.drop n) else .error "unexpected end of input"

theorem take_bytes_append (bytes rest : List U8) : takeBytes bytes.length (bytes ++ rest) = .ok (bytes, rest) := by
  rw [takeBytes, if_pos (by simp), List.take_left, List.drop_left]

def takeNat (n : Nat) (input : List U8) : Except String (Nat × List U8) :=
  match takeBytes n input with
  | .error e => .error e
  | .ok (bytes, rest) => .ok (ofLeBytes bytes.reverse, rest)

theorem take_nat_be_bytes (n value : Nat) (rest : List U8) (bound : value < 256 ^ n) :
    takeNat n (beBytes n value ++ rest) = .ok (value, rest) := by
  have taken := take_bytes_append (beBytes n value) rest
  rw [length_be_bytes] at taken
  rw [takeNat, taken]
  dsimp only
  rw [beBytes, List.reverse_reverse, of_le_bytes_le_bytes, Nat.mod_eq_of_lt bound]

def takeUnary : List U8 → Except String (Nat × List U8)
  | [] => .error "unexpected end of input"
  | byte :: rest =>
      if byte = 0 then
        match takeUnary rest with
        | .error e => .error e
        | .ok (n, rest) => .ok (n + 1, rest)
      else .ok (0, rest)

theorem take_unary_replicate (n : Nat) (rest : List U8) :
    takeUnary (List.replicate n 0 ++ 1 :: rest) = .ok (n, rest) := by
  induction n with
  | zero => rfl
  | succ n ih => rw [List.replicate_succ, List.cons_append, takeUnary, if_pos rfl, ih]

def headByte (major info : Nat) : U8 := BitVec.ofNat 8 (32 * major + info)

-- The head of an item: its major type and an argument. CBOR stops at 64-bit
-- arguments; the last form only keeps the format total on naturals.
def encodeHead (major n : Nat) : List U8 :=
  if n < 24 then [headByte major n]
  else if n < 256 ^ 1 then headByte major 24 :: beBytes 1 n
  else if n < 256 ^ 2 then headByte major 25 :: beBytes 2 n
  else if n < 256 ^ 4 then headByte major 26 :: beBytes 4 n
  else if n < 256 ^ 8 then headByte major 27 :: beBytes 8 n
  else headByte major 28 :: (List.replicate n 0 ++ [1])

def parseArgument (info : Nat) (rest : List U8) : Except String (Nat × List U8) :=
  if info < 24 then .ok (info, rest)
  else if info = 24 then takeNat 1 rest
  else if info = 25 then takeNat 2 rest
  else if info = 26 then takeNat 4 rest
  else if info = 27 then takeNat 8 rest
  else if info = 28 then takeUnary rest
  else .error "reserved head"

def parseHead (major : Nat) : List U8 → Except String (Nat × List U8)
  | [] => .error "unexpected end of input"
  | byte :: rest =>
      if byte.toNat / 32 ≠ major then .error "unexpected major type"
      else parseArgument (byte.toNat % 32) rest

theorem parse_head_byte (major info : Nat) (rest : List U8) (small : major < 8) (bound : info < 32) :
    parseHead major (headByte major info :: rest) = parseArgument info rest := by
  have value : (headByte major info).toNat = 32 * major + info := by
    rw [headByte, BitVec.toNat_ofNat, Nat.mod_eq_of_lt (by omega)]
  rw [parseHead, value, if_neg (by omega), show (32 * major + info) % 32 = info by omega]

theorem parse_head_encode (major n : Nat) (rest : List U8) (small : major < 8) :
    parseHead major (encodeHead major n ++ rest) = .ok (n, rest) := by
  simp only [encodeHead]
  split
  · rename_i direct
    rw [List.singleton_append, parse_head_byte major n rest small (by omega), parseArgument, if_pos direct]
  · split
    · rename_i fits
      rw [List.cons_append, parse_head_byte major 24 _ small (by omega)]
      exact take_nat_be_bytes 1 n rest fits
    · split
      · rename_i fits
        rw [List.cons_append, parse_head_byte major 25 _ small (by omega)]
        exact take_nat_be_bytes 2 n rest fits
      · split
        · rename_i fits
          rw [List.cons_append, parse_head_byte major 26 _ small (by omega)]
          exact take_nat_be_bytes 4 n rest fits
        · split
          · rename_i fits
            rw [List.cons_append, parse_head_byte major 27 _ small (by omega)]
            exact take_nat_be_bytes 8 n rest fits
          · rw [List.cons_append, parse_head_byte major 28 _ small (by omega), List.append_assoc]
            exact take_unary_replicate n rest

def head (major : Nat) (small : major < 8) : Wire Nat where
  encode := encodeHead major
  parse := parseHead major
  parse_encode := fun n rest => parse_head_encode major n rest small

def uint : Wire Nat := head 0 (by decide)

def byteString : Wire (List U8) where
  encode := fun bytes => encodeHead 2 bytes.length ++ bytes
  parse := fun input =>
    match parseHead 2 input with
    | .error e => .error e
    | .ok (n, rest) => takeBytes n rest
  parse_encode := by
    intro bytes rest
    rw [List.append_assoc, parse_head_encode 2 bytes.length _ (by decide)]
    exact take_bytes_append bytes rest

def parseMany (parse : List U8 → Except String (α × List U8)) : Nat → List U8 → Except String (List α × List U8)
  | 0, input => .ok ([], input)
  | n + 1, input =>
      match parse input with
      | .error e => .error e
      | .ok (item, rest) =>
          match parseMany parse n rest with
          | .error e => .error e
          | .ok (tail, rest) => .ok (item :: tail, rest)

theorem parse_many_encode (wire : Wire α) (items : List α) (rest : List U8) :
    parseMany wire.parse items.length (items.flatMap wire.encode ++ rest) = .ok (items, rest) := by
  induction items with
  | nil => rfl
  | cons item tail ih =>
      rw [List.flatMap_cons, List.append_assoc, List.length_cons, parseMany, wire.parse_encode]
      dsimp only
      rw [ih]

def array (wire : Wire α) : Wire (List α) where
  encode := fun items => encodeHead 4 items.length ++ items.flatMap wire.encode
  parse := fun input =>
    match parseHead 4 input with
    | .error e => .error e
    | .ok (n, rest) => parseMany wire.parse n rest
  parse_encode := by
    intro items rest
    rw [List.append_assoc, parse_head_encode 4 items.length _ (by decide)]
    exact parse_many_encode wire items rest

def word (w : Nat) : Wire (BitVec w) :=
  uint.mapped (fun n => if n < 2 ^ w then .ok (BitVec.ofNat w n) else .error "integer out of range") BitVec.toNat
    (by
      intro value
      rw [if_pos value.isLt, BitVec.ofNat_toNat, BitVec.setWidth_eq])

def fixedArray (n : Nat) : Wire (Bytes n) :=
  (array (word 8)).mapped
    (fun items => if exact : items.length = n then .ok ⟨items, exact⟩ else .error "invalid length")
    List.Vector.toList
    (by
      intro value
      rw [dif_pos value.toList_length]
      rfl)

def minimalBytes (n : Nat) : List U8 := ((Nat.digits 256 n).map (BitVec.ofNat 8)).reverse

theorem of_le_bytes_digits (digits : List Nat) (bounded : ∀ digit ∈ digits, digit < 256) :
    ofLeBytes (digits.map (BitVec.ofNat 8)) = Nat.ofDigits 256 digits := by
  induction digits with
  | nil => rfl
  | cons digit tail ih =>
      have small : digit < 256 := bounded digit (by simp)
      rw [List.map_cons, ofLeBytes, ih (fun later member => bounded later (by simp [member])), Nat.ofDigits_cons,
        BitVec.toNat_ofNat, Nat.mod_eq_of_lt small]

theorem of_le_bytes_minimal (n : Nat) : ofLeBytes (minimalBytes n).reverse = n := by
  rw [minimalBytes, List.reverse_reverse, of_le_bytes_digits _ (fun digit member => Nat.digits_lt_base (by decide) member),
    Nat.ofDigits_digits]

def bigHead (major tag : Nat) (small : major < 8) (apart : (BitVec.ofNat 8 tag : U8).toNat / 32 ≠ major) : Wire Nat where
  encode := fun n => if n < 2 ^ 64 then encodeHead major n else BitVec.ofNat 8 tag :: byteString.encode (minimalBytes n)
  parse := fun input =>
    match parseHead major input with
    | .ok parsed => .ok parsed
    | .error _ =>
        match stripPrefix [BitVec.ofNat 8 tag] input with
        | none => .error "expected an integer"
        | some rest =>
            match byteString.parse rest with
            | .error e => .error e
            | .ok (bytes, rest) => .ok (ofLeBytes bytes.reverse, rest)
  parse_encode := by
    intro n rest
    by_cases direct : n < 2 ^ 64
    · rw [if_pos direct, parse_head_encode major n rest small]
    · rw [if_neg direct, List.cons_append, parseHead, if_pos apart]
      dsimp only
      rw [stripPrefix, if_pos rfl, stripPrefix]
      dsimp only
      rw [byteString.parse_encode]
      dsimp only
      rw [of_le_bytes_minimal]

def bigUint : Wire Nat := bigHead 0 0xC2 (by decide) (by decide)
def bigNegative : Wire Nat := bigHead 1 0xC3 (by decide) (by decide)

def wideWord (w : Nat) : Wire (BitVec w) :=
  bigUint.mapped (fun n => if n < 2 ^ w then .ok (BitVec.ofNat w n) else .error "integer out of range") BitVec.toNat
    (by
      intro value
      rw [if_pos value.isLt, BitVec.ofNat_toNat, BitVec.setWidth_eq])

theorem encode_head_first (major n : Nat) :
    ∃ info tail, info < 32 ∧ encodeHead major n = headByte major info :: tail := by
  simp only [encodeHead]
  split
  · exact ⟨n, [], by omega, rfl⟩
  · split
    · exact ⟨24, _, by decide, rfl⟩
    · split
      · exact ⟨25, _, by decide, rfl⟩
      · split
        · exact ⟨26, _, by decide, rfl⟩
        · split
          · exact ⟨27, _, by decide, rfl⟩
          · exact ⟨28, _, by decide, rfl⟩

theorem big_uint_refuses_negative : Refuses bigUint bigNegative := by
  intro n rest
  refine ⟨"expected an integer", ?_⟩
  dsimp only [bigUint, bigNegative, bigHead]
  by_cases direct : n < 2 ^ 64
  · obtain ⟨info, tail, small, first⟩ := encode_head_first 1 n
    have value : (headByte 1 info).toNat = 32 + info := by
      rw [headByte, BitVec.toNat_ofNat, Nat.mod_eq_of_lt (by omega)]
    have untagged : ¬ BitVec.ofNat 8 0xC2 = headByte 1 info := by
      intro same
      have values := congrArg BitVec.toNat same
      rw [value, BitVec.toNat_ofNat] at values
      omega
    rw [if_pos direct, first, List.cons_append, parseHead, if_pos (by omega)]
    dsimp only
    rw [stripPrefix, if_neg untagged]
  · rw [if_neg direct, List.cons_append, parseHead, if_pos (by decide)]
    dsimp only
    rw [stripPrefix, if_neg (by decide)]

def integer : Wire Int :=
  (bigUint.orElse bigNegative big_uint_refuses_negative).mapped
    (fun parsed =>
      match parsed with
      | .inl n => .ok (Int.ofNat n)
      | .inr n => .ok (Int.negSucc n))
    (fun value =>
      match value with
      | .ofNat n => .inl n
      | .negSucc n => .inr n)
    (by
      intro value
      cases value <;> rfl)

def signedWord (w : Nat) : Wire (BitVec w) :=
  integer.mapped
    (fun value => if (BitVec.ofInt w value).toInt = value then .ok (BitVec.ofInt w value) else .error "integer out of range")
    BitVec.toInt
    (by
      intro value
      rw [BitVec.ofInt_toInt, if_pos rfl])

def text (name : List U8) : List U8 := encodeHead 3 name.length ++ name

def Wire.record (wire : Wire α) (fields : Nat) : Wire α := wire.after (encodeHead 5 fields)

def Wire.field (wire : Wire α) (name : List U8) : Wire α := wire.after (text name)

def Wire.AtLeast (wire : Wire α) (size : Nat) : Prop := ∀ value, size ≤ (wire.encode value).length
def Wire.AtMost (wire : Wire α) (size : Nat) : Prop := ∀ value, (wire.encode value).length ≤ size

theorem head_at_least (major n : Nat) : 1 ≤ (encodeHead major n).length := by
  obtain ⟨info, tail, _, first⟩ := encode_head_first major n
  rw [first, List.length_cons]
  exact Nat.le_add_left ..

theorem word_at_least (w : Nat) : (word w).AtLeast 1 := fun value => head_at_least 0 value.toNat

theorem byte_at_most : (word 8).AtMost 2 := by
  intro value
  show (encodeHead 0 value.toNat).length ≤ 2
  have bound := value.isLt
  rw [encodeHead]
  split
  · exact Nat.le_succ 1
  · rw [if_pos (by omega), List.length_cons, length_be_bytes]

theorem byte_string_length (bytes : List U8) :
    (byteString.encode bytes).length = (encodeHead 2 bytes.length).length + bytes.length := List.length_append

theorem byte_string_at_least : byteString.AtLeast 1 := by
  intro value
  rw [byte_string_length]
  exact Nat.le_add_right_of_le (head_at_least 2 value.length)

theorem items_at_least (wire : Wire α) (size : Nat) (sized : wire.AtLeast size) (items : List α) :
    items.length * size ≤ (items.flatMap wire.encode).length := by
  induction items with
  | nil => simp
  | cons item tail ih =>
      have first := sized item
      rw [List.flatMap_cons, List.length_append, List.length_cons, Nat.succ_mul]
      omega

theorem items_at_most (wire : Wire α) (size : Nat) (sized : wire.AtMost size) (items : List α) :
    (items.flatMap wire.encode).length ≤ items.length * size := by
  induction items with
  | nil => simp
  | cons item tail ih =>
      have first := sized item
      rw [List.flatMap_cons, List.length_append, List.length_cons, Nat.succ_mul]
      omega

theorem fixed_array_length (n : Nat) (value : Bytes n) :
    ((fixedArray n).encode value).length = (encodeHead 4 n).length + (value.toList.flatMap (word 8).encode).length := by
  show (encodeHead 4 value.toList.length ++ value.toList.flatMap (word 8).encode).length = _
  rw [List.length_append, value.toList_length]

theorem fixed_array_at_least (n : Nat) : (fixedArray n).AtLeast (1 + n) := by
  intro value
  have items := items_at_least (word 8) 1 (word_at_least 8) value.toList
  have opened := head_at_least 4 n
  rw [value.toList_length] at items
  rw [fixed_array_length]
  omega

theorem fixed_array_at_most (n : Nat) : (fixedArray n).AtMost ((encodeHead 4 n).length + n * 2) := by
  intro value
  have items := items_at_most (word 8) 2 byte_at_most value.toList
  rw [value.toList_length] at items
  rw [fixed_array_length]
  exact Nat.add_le_add_left items _

theorem after_at_most (wire : Wire α) (literal : List U8) (size : Nat) (sized : wire.AtMost size) :
    (wire.after literal).AtMost (literal.length + size) := by
  intro value
  show (literal ++ wire.encode value).length ≤ _
  rw [List.length_append]
  exact Nat.add_le_add_left (sized value) _

theorem both_at_most (first : Wire α) (second : Wire β) (m n : Nat) (firstSized : first.AtMost m)
    (secondSized : second.AtMost n) : (first.both second).AtMost (m + n) := by
  intro pair
  show (first.encode pair.1 ++ second.encode pair.2).length ≤ _
  rw [List.length_append]
  exact Nat.add_le_add (firstSized pair.1) (secondSized pair.2)

theorem word_at_most (w : Nat) (narrow : w ≤ 64) : (word w).AtMost 9 := by
  intro value
  show (encodeHead 0 value.toNat).length ≤ 9
  have bound := value.isLt
  have wide : 2 ^ w ≤ 2 ^ 64 := Nat.pow_le_pow_right (by decide) narrow
  rw [encodeHead]
  split
  · simp
  · split
    · simp [length_be_bytes]
    · split
      · simp [length_be_bytes]
      · split
        · simp [length_be_bytes]
        · rw [if_pos (by omega), List.length_cons, length_be_bytes]

end Cbor
