import PyGrove.Lib.Words

set_option autoImplicit false

open Words

-- A serialization whose decoder inverts its encoder. Decoding can fail on
-- other bytes; the error is the decoder's text.
structure Codec (α : Type) where
  encode : α → List U8
  decode : List U8 → Except String α
  decode_encode : ∀ value, decode (encode value) = .ok value

namespace Codec

variable {α : Type}

attribute [simp] Codec.decode_encode

theorem encode_injective (codec : Codec α) (a b : α) (same : codec.encode a = codec.encode b) : a = b := by
  have decoded := congrArg codec.decode same
  simpa using decoded

end Codec

theorem tagged_inj {κ : Type} (tag : κ → List U8) (free : ∀ a b, tag a <+: tag b → a = b) (a b : κ) (x y : List U8)
    (same : tag a ++ x = tag b ++ y) : a = b ∧ x = y := by
  have kind : a = b := by
    have first : tag a <+: tag b ++ y := ⟨x, same⟩
    rcases Nat.le_total (tag a).length (tag b).length with shorter | longer
    · exact free a b (List.prefix_of_prefix_length_le first (List.prefix_append (tag b) y) shorter)
    · exact (free b a (List.prefix_of_prefix_length_le (List.prefix_append (tag b) y) first longer)).symm
  rw [kind] at same
  exact ⟨kind, List.append_cancel_left same⟩

theorem flat_map_records_inj {α : Type} (record : α → List U8) (fits : α → Prop) (nonempty : ∀ a, record a ≠ [])
    (ends : ∀ a b x y, fits a → fits b → record a ++ x = record b ++ y → a = b ∧ x = y) (a b : List α)
    (fitsA : ∀ item ∈ a, fits item) (fitsB : ∀ item ∈ b, fits item) (same : a.flatMap record = b.flatMap record) :
    a = b := by
  induction a generalizing b with
  | nil =>
      cases b with
      | nil => rfl
      | cons y ys =>
          rw [List.flatMap_nil, List.flatMap_cons] at same
          exact absurd (List.append_eq_nil_iff.mp same.symm).1 (nonempty y)
  | cons x xs ih =>
      cases b with
      | nil =>
          rw [List.flatMap_nil, List.flatMap_cons] at same
          exact absurd (List.append_eq_nil_iff.mp same).1 (nonempty x)
      | cons y ys =>
          rw [List.flatMap_cons, List.flatMap_cons] at same
          obtain ⟨head, tail⟩ := ends x y _ _ (fitsA x (by simp)) (fitsB y (by simp)) same
          rw [head, ih ys (fun item member => fitsA item (by simp [member])) (fun item member => fitsB item (by simp [member])) tail]
