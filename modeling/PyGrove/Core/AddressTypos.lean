import PyGrove.Core.Address
import PyGrove.Lib.Bech32Errors

set_option autoImplicit false

namespace PyGrove.Core

open Words BitGroups Bech32

inductive OneTypo : List Char → List Char → Prop where
  | replaced (before after : List Char) (c c' : Char) (apart : c ≠ c') :
      OneTypo (before ++ c :: after) (before ++ c' :: after)
  | swapped (before after : List Char) (a b : Char) (apart : a ≠ b) :
      OneTypo (before ++ a :: b :: after) (before ++ b :: a :: after)
  | dropped (before after : List Char) (c : Char) : OneTypo (before ++ c :: after) (before ++ after)

theorem part_after_prefix (start u v before after after' : List Char) (c c' : Char) (apart : c ≠ c')
    (first : start ++ u = before ++ c :: after) (second : start ++ v = before ++ c' :: after') :
    ∃ front, u = front ++ c :: after ∧ v = front ++ c' :: after' := by
  rcases List.append_eq_append_iff.mp first with ⟨front, rfl, rest⟩ | ⟨front, rfl, rest⟩
  · rw [List.append_assoc] at second
    exact ⟨front, rest, List.append_cancel_left second⟩
  · cases front with
    | nil =>
        rw [List.append_nil] at second
        exact ⟨[], rest.symm, List.append_cancel_left second⟩
    | cons other front =>
        rw [List.cons_append] at rest
        rw [List.append_assoc, List.cons_append] at second
        exact absurd ((List.cons.inj rest).1.trans (List.cons.inj (List.append_cancel_left second)).1) apart

def addressWord (variant : Variant) (symbols : List Symbol) : List Symbol :=
  symbols ++ checksum variant (expand addressHrp.toList ++ symbols)

theorem address_word_verifies (variant : Variant) (symbols : List Symbol) :
    polymod (expand addressHrp.toList ++ addressWord variant symbols) = variant.target := by
  rw [addressWord, ← List.append_assoc]
  exact (verifies_iff variant _ _ (checksum_length ..)).mpr rfl

theorem render_address (variant : Variant) (symbols : List Symbol) :
    render variant addressHrp.toList symbols = (addressHrp.toList ++ ['1']) ++ (addressWord variant symbols).map toChar := by
  rw [render, addressWord, List.append_assoc, List.singleton_append]

theorem symbols_part (x y : List Symbol) (front after after' : List Char) (c c' : Char)
    (first : x.map toChar = front ++ c :: after) (second : y.map toChar = front ++ c' :: after') :
    ∃ head a b back back', x = head ++ a :: back ∧ y = head ++ b :: back' ∧ toChar a = c ∧ toChar b = c' ∧
      back.map toChar = after ∧ back'.map toChar = after' := by
  have injective : Function.Injective (List.map toChar) := List.map_injective_iff.mpr fun a b => to_char_inj a b
  obtain ⟨head, rest, rfl, headEq, restEq⟩ := List.map_eq_append_iff.mp first
  obtain ⟨head', rest', rfl, headEq', restEq'⟩ := List.map_eq_append_iff.mp second
  obtain ⟨a, back, rfl, read, tail⟩ := List.map_eq_cons_iff.mp restEq
  obtain ⟨b, back', rfl, read', tail'⟩ := List.map_eq_cons_iff.mp restEq'
  obtain rfl : head = head' := injective (headEq.trans headEq'.symm)
  exact ⟨head, a, b, back, back', rfl, rfl, read, read', tail, tail'⟩

theorem replaced_not_rendered (variant other : Variant) (x y : List Symbol) (before after : List Char) (c c' : Char)
    (short : x.length < 80) (apart : c ≠ c') (first : render variant addressHrp.toList x = before ++ c :: after)
    (second : render other addressHrp.toList y = before ++ c' :: after) : False := by
  rw [render_address] at first second
  obtain ⟨front, left, right⟩ := part_after_prefix _ _ _ before after after c c' apart first second
  obtain ⟨head, a, b, back, back', word, word', rfl, rfl, tail, tail'⟩ := symbols_part _ _ front after after c c' left right
  obtain rfl : back = back' := List.map_injective_iff.mpr (fun a b => to_char_inj a b) (tail.trans tail'.symm)
  have length := congrArg List.length word
  rw [addressWord, List.length_append, checksum_length, List.length_append, List.length_cons] at length
  have verified := address_word_verifies variant x
  have verified' := address_word_verifies other y
  rw [word, ← List.append_assoc] at verified
  rw [word', ← List.append_assoc] at verified'
  exact replaced_symbol_shows variant other _ back a b (by omega) (fun same => apart (by rw [same])) verified verified'

theorem swapped_not_rendered (variant other : Variant) (x y : List Symbol) (before after : List Char) (c c' : Char)
    (short : x.length < 80) (apart : c ≠ c') (first : render variant addressHrp.toList x = before ++ c :: c' :: after)
    (second : render other addressHrp.toList y = before ++ c' :: c :: after) : False := by
  rw [render_address] at first second
  obtain ⟨front, left, right⟩ := part_after_prefix _ _ _ before _ _ c c' apart first second
  obtain ⟨head, a, b, rest, rest', word, word', rfl, rfl, tail, tail'⟩ := symbols_part _ _ front _ _ c c' left right
  obtain ⟨b', back, rfl, read, back1⟩ := List.map_eq_cons_iff.mp tail
  obtain ⟨a', back', rfl, read', back2⟩ := List.map_eq_cons_iff.mp tail'
  obtain rfl := to_char_inj b' b read
  obtain rfl := to_char_inj a' a read'
  obtain rfl : back = back' := List.map_injective_iff.mpr (fun a b => to_char_inj a b) (back1.trans back2.symm)
  have length := congrArg List.length word
  rw [addressWord, List.length_append, checksum_length, List.length_append, List.length_cons, List.length_cons] at length
  have verified := address_word_verifies variant x
  have verified' := address_word_verifies other y
  rw [word, ← List.append_assoc] at verified
  rw [word', ← List.append_assoc] at verified'
  exact swapped_symbols_show variant other _ back a' b' (by omega) (fun same => apart (by rw [same])) verified verified'

theorem length_address_symbols (id : AccountId) : (toSymbols id.id.toList).length = 32 := by
  have bits := congrArg List.length (address_bits id)
  rw [length_flat_bits, length_flat_bits, List.Vector.toList_length] at bits
  omega

theorem one_typo_rejected [Bech32Crate] (id : AccountId) (s t : String) (written : id.toBech32 = some s)
    (typo : OneTypo s.toList t.toList) : ∃ e, AccountId.fromBech32 t = .error e := by
  have spelled := (to_bech32_some id s).mp written
  rw [encode_address] at spelled
  have symbols := length_address_symbols id
  cases read : AccountId.fromBech32 t with
  | error e => exact ⟨e, rfl⟩
  | ok other =>
      obtain ⟨variant, held, length, accepted⟩ : ∃ variant held, 32 ≤ held.length ∧
          t.toList = render variant addressHrp.toList held := by
        have shape := length_address_symbols other
        rcases (accepted_iff t other).mp read with ⟨variant, plain⟩ | ⟨variant, symbol, _, surplus⟩
        · exact ⟨variant, _, shape.ge, plain.trans (encode_address variant other)⟩
        · exact ⟨variant, _, by rw [List.length_append, shape]; exact Nat.le_add_right .., surplus⟩
      have size := congrArg List.length spelled
      have size' := congrArg List.length accepted
      rw [length_render] at size size'
      generalize s.toList = typed at *
      generalize t.toList = received at *
      cases typo with
      | replaced before after c c' apart =>
          exact (replaced_not_rendered _ _ _ _ before after c c' (by omega) apart spelled.symm accepted.symm).elim
      | swapped before after a b apart =>
          exact (swapped_not_rendered _ _ _ _ before after a b (by omega) apart spelled.symm accepted.symm).elim
      | dropped before after c =>
          rw [List.length_append, List.length_cons] at size
          rw [List.length_append] at size'
          omega

open Sample in
theorem zero_address_typo_rejected :
    ∃ e, AccountId.fromBech32 "pyg1qqqqqqqqqqqqqqqqqqqqqqqqqqqqqqqqp90qwz" = .error e := by
  have written : "pyg1qqqqqqqqqqqqqqqqqqqqqqqqqqqqqqqqp90qwg".toList =
      "pyg1qqqqqqqqqqqqqqqqqqqqqqqqqqqqqqqqp90qw".toList ++ ['g'] := by simp
  have typed : "pyg1qqqqqqqqqqqqqqqqqqqqqqqqqqqqqqqqp90qwz".toList =
      "pyg1qqqqqqqqqqqqqqqqqqqqqqqqqqqqqqqqp90qw".toList ++ ['z'] := by simp
  refine one_typo_rejected ⟨.replicate 20 0⟩ "pyg1qqqqqqqqqqqqqqqqqqqqqqqqqqqqqqqqp90qwg" _ (by decide +kernel) ?_
  rw [written, typed]
  exact .replaced _ [] 'g' 'z' (by decide)

end PyGrove.Core
