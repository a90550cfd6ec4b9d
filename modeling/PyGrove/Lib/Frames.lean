import PyGrove.Lib.Codec

set_option autoImplicit false

/- A log of records in one file: each record is a u32 little-endian length and
   that many bytes of body. Nothing marks the end of the log but the end of the
   file. -/
namespace Frames

open Words

variable {α : Type}

inductive ReadError where
  | truncated
  | malformed (reason : String)
deriving DecidableEq

-- A body of 2^32 bytes or more has its length cut to the low 32 bits.
def record (codec : Codec α) (value : α) : List U8 :=
  leBytes 4 (codec.encode value).length ++ codec.encode value

theorem length_record (codec : Codec α) (value : α) : (record codec value).length = 4 + (codec.encode value).length := by
  rw [record, List.length_append, length_le_bytes]

-- Fewer than four bytes where a length should start are taken as the end.
def readAll (codec : Codec α) (bytes : List U8) : Except ReadError (List α) :=
  if _ : bytes.length < 4 then .ok []
  else
    let len := ofLeBytes (bytes.take 4)
    let rest := bytes.drop 4
    if rest.length < len then .error .truncated
    else
      match codec.decode (rest.take len) with
      | .error reason => .error (.malformed reason)
      | .ok value =>
          match readAll codec (rest.drop len) with
          | .error e => .error e
          | .ok tail => .ok (value :: tail)
termination_by bytes.length
decreasing_by
  simp only [List.length_drop]
  omega

inductive Records (codec : Codec α) : List U8 → List α → Prop where
  | nil : Records codec [] []
  | cons (head body rest : List U8) (value : α) (values : List α) (width : head.length = 4)
      (sized : ofLeBytes head = body.length) (decoded : codec.decode body = .ok value)
      (tail : Records codec rest values) : Records codec (head ++ (body ++ rest)) (value :: values)

theorem read_all_cons (codec : Codec α) (head body rest : List U8) (value : α) (width : head.length = 4)
    (sized : ofLeBytes head = body.length) (decoded : codec.decode body = .ok value) :
    readAll codec (head ++ (body ++ rest)) =
      match readAll codec rest with
      | .error e => .error e
      | .ok tail => .ok (value :: tail) := by
  have taken : (head ++ (body ++ rest)).take 4 = head := by rw [List.take_append_of_le_length (by omega), ← width, List.take_length]
  have dropped : (head ++ (body ++ rest)).drop 4 = body ++ rest := by rw [← width, List.drop_left]
  rw [readAll, dif_neg (by simp only [List.length_append]; omega)]
  dsimp only
  rw [taken, dropped, sized, if_neg (by simp only [List.length_append]; omega), List.take_left, List.drop_left, decoded]

theorem records_read (codec : Codec α) (bytes : List U8) (values : List α) (whole : Records codec bytes values) :
    readAll codec bytes = .ok values := by
  induction whole with
  | nil =>
      rw [readAll, dif_pos (by decide)]
  | cons head body rest value values width sized decoded _ ih =>
      rw [read_all_cons codec head body rest value width sized decoded, ih]

theorem records_append (codec : Codec α) (a b : List U8) (xs ys : List α) (first : Records codec a xs)
    (second : Records codec b ys) : Records codec (a ++ b) (xs ++ ys) := by
  induction first with
  | nil => exact second
  | cons head body rest value values width sized decoded _ ih =>
      rw [List.append_assoc, List.append_assoc]
      exact .cons head body (rest ++ b) value (values ++ ys) width sized decoded ih

theorem record_whole (codec : Codec α) (value : α) (sized : (codec.encode value).length < 2 ^ 32) :
    Records codec (record codec value) [value] := by
  have length : ofLeBytes (leBytes 4 (codec.encode value).length) = (codec.encode value).length := by
    rw [of_le_bytes_le_bytes, Nat.mod_eq_of_lt (by omega)]
  have whole := Records.cons _ _ [] value [] (length_le_bytes 4 _) length (codec.decode_encode value) .nil
  rwa [List.append_nil] at whole

theorem records_snoc (codec : Codec α) (bytes : List U8) (values : List α) (value : α)
    (whole : Records codec bytes values) (sized : (codec.encode value).length < 2 ^ 32) :
    Records codec (bytes ++ record codec value) (values ++ [value]) :=
  records_append codec _ _ _ _ whole (record_whole codec value sized)

theorem read_all_short (codec : Codec α) (bytes : List U8) (short : bytes.length < 4) : readAll codec bytes = .ok [] := by
  rw [readAll, dif_pos short]

theorem read_all_truncated (codec : Codec α) (head rest : List U8) (width : head.length = 4)
    (missing : rest.length < ofLeBytes head) : readAll codec (head ++ rest) = .error .truncated := by
  have taken : (head ++ rest).take 4 = head := by rw [← width, List.take_left]
  have dropped : (head ++ rest).drop 4 = rest := by rw [← width, List.drop_left]
  rw [readAll, dif_neg (by rw [List.length_append]; omega)]
  dsimp only
  rw [taken, dropped, if_pos missing]

theorem records_then (codec : Codec α) (whole rest : List U8) (values : List α) (records : Records codec whole values) :
    readAll codec (whole ++ rest) = (readAll codec rest).map (values ++ ·) := by
  induction records with
  | nil =>
      rw [List.nil_append]
      cases readAll codec rest <;> rfl
  | cons head body tail value values width sized decoded _ ih =>
      rw [List.append_assoc, List.append_assoc, read_all_cons codec head body _ value width sized decoded, ih]
      cases readAll codec rest <;> rfl

theorem read_torn (codec : Codec α) (value : α) (written : Nat) (sized : (codec.encode value).length < 2 ^ 32)
    (torn : written < (record codec value).length) :
    readAll codec ((record codec value).take written) = if written < 4 then .ok [] else .error .truncated := by
  rw [length_record] at torn
  by_cases inLength : written < 4
  · rw [if_pos inLength]
    apply read_all_short
    rw [List.length_take]
    omega
  · rw [if_neg inLength, record, List.take_append, List.take_of_length_le (by rw [length_le_bytes]; omega)]
    apply read_all_truncated codec _ _ (length_le_bytes 4 _)
    rw [List.length_take, length_le_bytes, of_le_bytes_le_bytes, Nat.mod_eq_of_lt (by omega)]
    omega

-- Bytes of a torn length in front of a record become the low bytes of its
-- length, which is then far too large.
theorem read_misaligned (codec : Codec α) (leftover : List U8) (value : α) (nonempty : leftover ≠ [])
    (short : leftover.length < 4) (small : (codec.encode value).length < 2 ^ 16)
    (odd : (codec.encode value).length % 256 ≠ 0) :
    readAll codec (leftover ++ record codec value) = .error .truncated := by
  generalize encoded : codec.encode value = body at small odd
  have positive := List.length_pos_iff.mpr nonempty
  have split : leftover ++ record codec value =
      (leftover ++ leBytes (4 - leftover.length) body.length) ++
        ((leBytes 4 body.length).drop (4 - leftover.length) ++ body) := by
    rw [record, encoded, ← le_bytes_take 4 (4 - leftover.length) body.length (by omega), List.append_assoc,
      ← List.append_assoc (List.take _ _), List.take_append_drop]
  rw [split]
  apply read_all_truncated
  · rw [List.length_append, length_le_bytes]
    omega
  · rw [of_le_bytes_append, of_le_bytes_le_bytes, List.length_append, List.length_drop, length_le_bytes]
    have width : leftover.length = 1 ∨ leftover.length = 2 ∨ leftover.length = 3 := by omega
    rcases width with one | two | three
    · rw [one]
      omega
    · rw [two]
      omega
    · rw [three]
      omega

end Frames
