import PyGrove.Lib.Codec
import PyGrove.State.Store

set_option autoImplicit false

namespace PyGrove.State

open Words

structure Write where
  sub : Subtree
  key : List U8
  value : List U8

def Write.Fits (write : Write) : Prop := write.key.length < 2 ^ 32 ∧ write.value.length < 2 ^ 32

namespace MemState

def putAll (state : MemState) (writes : List Write) : MemState :=
  writes.foldl (fun state write => state.put write.sub write.key write.value) state

def EntryFits (entry : (U8 × List U8) × List U8) : Prop :=
  entry.1.2.length < 2 ^ 32 ∧ entry.2.length < 2 ^ 32

-- A record starts with its tag and gives both lengths before the bytes they
-- count, so what follows it cannot be taken for a part of it.
theorem root_record_ends (a b : (U8 × List U8) × List U8) (x y : List U8) (fitsA : EntryFits a) (fitsB : EntryFits b)
    (same : rootRecord a ++ x = rootRecord b ++ y) : a = b ∧ x = y := by
  obtain ⟨⟨tag, key⟩, value⟩ := a
  obtain ⟨⟨tag', key'⟩, value'⟩ := b
  simp only [rootRecord, List.cons_append, List.append_assoc, List.cons.injEq] at same
  obtain ⟨rfl, afterTag⟩ := same
  obtain ⟨keyLength, afterKeyLength⟩ := List.append_inj afterTag (by simp)
  obtain ⟨rfl, afterKey⟩ := List.append_inj afterKeyLength (le_bytes_inj 4 _ _ fitsA.1 fitsB.1 keyLength)
  obtain ⟨valueLength, afterValueLength⟩ := List.append_inj afterKey (by simp)
  obtain ⟨rfl, rfl⟩ := List.append_inj afterValueLength (le_bytes_inj 4 _ _ fitsA.2 fitsB.2 valueLength)
  exact ⟨rfl, rfl⟩

theorem root_record_nonempty (entry : (U8 × List U8) × List U8) : rootRecord entry ≠ [] := by
  simp [rootRecord]

theorem root_buffer_inj (a b : MemState) (fitsA : ∀ entry ∈ a.data.toList, EntryFits entry)
    (fitsB : ∀ entry ∈ b.data.toList, EntryFits entry) (same : a.rootBuffer = b.rootBuffer) : a = b := by
  have entries := flat_map_records_inj rootRecord EntryFits root_record_nonempty root_record_ends _ _ fitsA fitsB same
  apply ext_get
  intro sub key
  apply Option.ext
  intro value
  rw [get, get, ← Std.ExtTreeMap.mem_toList_iff_getElem?_eq_some, ← Std.ExtTreeMap.mem_toList_iff_getElem?_eq_some, entries]

theorem put_fits (state : MemState) (write : Write) (small : write.Fits) (fits : ∀ entry ∈ state.data.toList, EntryFits entry) :
    ∀ entry ∈ (state.put write.sub write.key write.value).data.toList, EntryFits entry := by
  rintro ⟨entry, value⟩ member
  simp only [Std.ExtTreeMap.mem_toList_iff_getElem?_eq_some, put, Std.ExtTreeMap.getElem?_insert,
    Std.LawfulEqCmp.compare_eq_iff_eq] at member
  split at member
  · rename_i written
    cases written
    cases member
    exact small
  · exact fits (entry, value) (Std.ExtTreeMap.mem_toList_iff_getElem?_eq_some.mpr member)

theorem put_all_fits (state : MemState) (writes : List Write) (small : ∀ write ∈ writes, write.Fits)
    (fits : ∀ entry ∈ state.data.toList, EntryFits entry) : ∀ entry ∈ (state.putAll writes).data.toList, EntryFits entry := by
  induction writes generalizing state with
  | nil => exact fits
  | cons write tail ih =>
      exact ih _ (fun later member => small later (by simp [member])) (put_fits state write (small write (by simp)) fits)

theorem new_fits : ∀ entry ∈ new.data.toList, EntryFits entry := by
  simp [new]

end MemState

theorem root_preimage_iff (a b : List Write) (smallA : ∀ write ∈ a, write.Fits) (smallB : ∀ write ∈ b, write.Fits) :
    (MemState.new.putAll a).rootBuffer = (MemState.new.putAll b).rootBuffer ↔
      ∀ sub key, (MemState.new.putAll a).get sub key = (MemState.new.putAll b).get sub key := by
  constructor
  · intro same sub key
    rw [MemState.root_buffer_inj _ _ (MemState.put_all_fits _ a smallA MemState.new_fits)
      (MemState.put_all_fits _ b smallB MemState.new_fits) same]
  · intro same
    rw [MemState.ext_get _ _ same]

theorem reordered_writes_same_preimage :
    (MemState.new.putAll [⟨.accounts, [1], [7]⟩, ⟨.reflect, [1], [8]⟩]).rootBuffer =
      (MemState.new.putAll [⟨.reflect, [1], [9]⟩, ⟨.reflect, [1], [8]⟩, ⟨.accounts, [1], [7]⟩]).rootBuffer := by
  refine (root_preimage_iff _ _ ?_ ?_).mpr ?_
  · simp [Write.Fits]
  · simp [Write.Fits]
  · intro sub key
    simp only [MemState.putAll, List.foldl_cons, List.foldl_nil, MemState.get_put, MemState.get_new]
    cases sub <;> grind

end PyGrove.State
