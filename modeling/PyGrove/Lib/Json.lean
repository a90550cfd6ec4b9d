import PyGrove.Lib.Words

set_option autoImplicit false

/- JSON as a compact printer writes it: no blanks, integers in decimal, strings
   in quotes with the short escapes where there are any. The parts of an array
   or an object are given as the texts they print to. -/
namespace Json

open Words

def number (n : Nat) : List U8 := (Nat.toDigits 10 n).map fun c => BitVec.ofNat 8 c.toNat

def hexDigit (n : Nat) : U8 := if n < 10 then BitVec.ofNat 8 (0x30 + n) else BitVec.ofNat 8 (0x57 + n)

def hex (bytes : List U8) : List U8 :=
  bytes.flatMap fun byte => [hexDigit (byte.toNat / 16), hexDigit (byte.toNat % 16)]

def escape (byte : U8) : List U8 :=
  if byte = 0x22 then [0x5C, 0x22]
  else if byte = 0x5C then [0x5C, 0x5C]
  else if byte = 0x08 then [0x5C, 0x62]
  else if byte = 0x09 then [0x5C, 0x74]
  else if byte = 0x0A then [0x5C, 0x6E]
  else if byte = 0x0C then [0x5C, 0x66]
  else if byte = 0x0D then [0x5C, 0x72]
  else if byte < 0x20 then [0x5C, 0x75, 0x30, 0x30, hexDigit (byte.toNat / 16), hexDigit (byte.toNat % 16)]
  else [byte]

def string (text : List U8) : List U8 := [0x22] ++ text.flatMap escape ++ [0x22]

def array (items : List (List U8)) : List U8 := [0x5B] ++ [0x2C].intercalate items ++ [0x5D]

def member (entry : List U8 × List U8) : List U8 := string entry.1 ++ [0x3A] ++ entry.2

def object (entries : List (List U8 × List U8)) : List U8 := [0x7B] ++ [0x2C].intercalate (entries.map member) ++ [0x7D]

theorem length_number (n : Nat) : (number n).length = (Nat.toDigits 10 n).length := by
  rw [number, List.length_map]

theorem length_hex (bytes : List U8) : (hex bytes).length = 2 * bytes.length := by
  induction bytes with
  | nil => rfl
  | cons byte tail ih =>
      rw [hex, List.flatMap_cons, List.length_append, ← hex, ih, @List.length_cons U8 byte tail]
      show 2 + 2 * tail.length = _
      omega

theorem escape_hex_digit (n : Nat) (small : n < 16) : escape (hexDigit n) = [hexDigit n] := by
  revert n
  decide

theorem escape_hex (bytes : List U8) : (hex bytes).flatMap escape = hex bytes := by
  induction bytes with
  | nil => rfl
  | cons byte tail ih =>
      have bound := byte.isLt
      rw [hex, List.flatMap_cons, List.flatMap_append, ← hex, ih, List.flatMap_cons, List.flatMap_singleton,
        escape_hex_digit _ (by omega), escape_hex_digit _ (by omega)]
      rfl

theorem length_hex_string (bytes : List U8) : (string (hex bytes)).length = 2 * bytes.length + 2 := by
  rw [string, escape_hex, List.length_append, List.length_append, length_hex]
  show 1 + 2 * bytes.length + 1 = _
  omega

theorem length_commas (items : List (List U8)) :
    ([0x2C].intercalate items : List U8).length = (items.map List.length).sum + (items.length - 1) := by
  induction items with
  | nil => rfl
  | cons item tail ih =>
      cases tail with
      | nil => simp
      | cons next rest =>
          rw [List.intercalate_cons_cons, List.length_append, List.length_append, ih, List.map_cons (l := next :: rest),
            List.sum_cons, @List.length_cons (List U8) item (next :: rest), List.length_singleton,
            @List.length_cons (List U8) next rest]
          omega

theorem length_array (items : List (List U8)) :
    (array items).length = (items.map List.length).sum + (items.length - 1) + 2 := by
  rw [array, List.length_append, List.length_append, length_commas, List.length_singleton, List.length_singleton]
  omega

theorem length_object (entries : List (List U8 × List U8)) :
    (object entries).length = ((entries.map Prod.fst).map fun key => (string key).length).sum +
      ((entries.map Prod.snd).map List.length).sum + entries.length + (entries.length - 1) + 2 := by
  have members : ((entries.map member).map List.length).sum =
      ((entries.map Prod.fst).map fun key => (string key).length).sum + ((entries.map Prod.snd).map List.length).sum +
        entries.length := by
    induction entries with
    | nil => rfl
    | cons entry tail ih =>
        simp only [List.map_cons, List.sum_cons, List.length_cons, member, List.length_append, List.length_nil] at ih ⊢
        omega
  rw [object, List.length_append, List.length_append, length_commas, members, List.length_map, List.length_singleton,
    List.length_singleton]
  omega

theorem length_hex_array (items : List (List U8)) :
    (array (items.map fun bytes => string (hex bytes))).length =
      2 * (items.map List.length).sum + 2 * items.length + (items.length - 1) + 2 := by
  have texts : ((items.map fun bytes => string (hex bytes)).map List.length).sum =
      2 * (items.map List.length).sum + 2 * items.length := by
    induction items with
    | nil => rfl
    | cons item tail ih =>
        rw [List.map_cons, List.map_cons, List.sum_cons, ih, length_hex_string, List.map_cons, List.sum_cons, List.length_cons]
        omega
  rw [length_array, texts, List.length_map]

end Json
