import PyGrove.State.Cbor
import PyGrove.State.RocksStore

set_option autoImplicit false

namespace PyGrove.State

open Words Steps PyGrove.Core

section
variable {δ : Type} [RocksDb δ]

-- A WriteBatch is written as a whole, its puts in the order they were added.
def writeBatch (db : δ) (batch : List (List U8 × List U8)) : δ :=
  batch.foldl (fun db entry => RocksDb.put db entry.1 entry.2) db

theorem write_batch_cons (db : δ) (entry : List U8 × List U8) (batch : List (List U8 × List U8)) :
    writeBatch db (entry :: batch) = writeBatch (RocksDb.put db entry.1 entry.2) batch := rfl

theorem get_batch_absent (db : δ) (batch : List (List U8 × List U8)) (full : List U8)
    (absent : full ∉ batch.map Prod.fst) : RocksDb.get (writeBatch db batch) full = RocksDb.get db full := by
  induction batch generalizing db with
  | nil => rfl
  | cons entry tail ih =>
      rw [List.map_cons, List.mem_cons, not_or] at absent
      rw [write_batch_cons, ih _ absent.2, RocksDb.get_put, if_neg (Ne.symm absent.1)]

theorem get_batch_written (db : δ) (batch : List (List U8 × List U8)) (full value : List U8)
    (distinct : (batch.map Prod.fst).Nodup) (written : (full, value) ∈ batch) :
    RocksDb.get (writeBatch db batch) full = some value := by
  induction batch generalizing db with
  | nil => cases written
  | cons entry tail ih =>
      rw [List.map_cons, List.nodup_cons] at distinct
      rw [write_batch_cons]
      rcases List.mem_cons.mp written with here | later
      · cases here
        rw [get_batch_absent _ _ _ distinct.1, RocksDb.get_put, if_pos rfl]
      · exact ih _ distinct.2 later

end

def MemState.iterCanonical (state : MemState) : List (U8 × List U8 × List U8) :=
  state.data.toList.map fun entry => (entry.1.1, entry.1.2, entry.2)

-- The key is put together in place, not by encode_key.
def importBatch (src : MemState) : List (List U8 × List U8) :=
  src.iterCanonical.map fun (sub, key, val) => (sub :: key, val)

theorem import_batch_entries (src : MemState) :
    importBatch src = src.data.toList.map fun entry => (entry.1.1 :: entry.1.2, entry.2) := by
  rw [importBatch, MemState.iterCanonical, List.map_map]
  rfl

theorem import_batch_distinct (src : MemState) : ((importBatch src).map Prod.fst).Nodup := by
  rw [import_batch_entries, List.Nodup, List.pairwise_map]
  refine (mem_entries_sorted src).imp ?_
  intro a b less same
  rw [same] at less
  exact compare_keys_asymm b.1 b.1 less less

theorem mem_import_batch (src : MemState) (full value : List U8) :
    (full, value) ∈ importBatch src ↔ ∃ sub key, full = encodeKey sub key ∧ src.get sub key = some value := by
  rw [import_batch_entries]
  exact mem_entry_iff src full value

theorem mem_import_keys (src : MemState) (sub : Subtree) (key : List U8) :
    encodeKey sub key ∈ (importBatch src).map Prod.fst ↔ ∃ value, src.get sub key = some value := by
  rw [List.mem_map]
  constructor
  · rintro ⟨⟨full, value⟩, member, rfl⟩
    obtain ⟨sub', key', same, found⟩ := (mem_import_batch src _ value).mp member
    obtain ⟨rfl, rfl⟩ := (encode_key_inj sub sub' key key').mp same
    exact ⟨value, found⟩
  · rintro ⟨value, found⟩
    exact ⟨(encodeKey sub key, value), (mem_import_batch src _ value).mpr ⟨sub, key, rfl, found⟩, rfl⟩

section
variable {δ : Type} [RocksDb δ] [HashFns]

namespace RocksState

theorem import_tagged (state : RocksState δ) (src : MemState) (full found : List U8)
    (present : RocksDb.get (writeBatch state.db (importBatch src)) full = some found) :
    ∃ sub key, full = encodeKey sub key := by
  by_cases written : full ∈ (importBatch src).map Prod.fst
  · obtain ⟨⟨_, value⟩, member, rfl⟩ := List.mem_map.mp written
    obtain ⟨sub, key, same, _⟩ := (mem_import_batch src _ value).mp member
    exact ⟨sub, key, same⟩
  · rw [get_batch_absent _ _ _ written] at present
    exact state.tagged full found present

def importFrom (state : RocksState δ) (src : MemState) : RocksState δ :=
  ⟨writeBatch state.db (importBatch src), none, import_tagged state src, by simp⟩

theorem get_import (state : RocksState δ) (src : MemState) (sub : Subtree) (key : List U8) :
    (state.importFrom src).get sub key = (src.get sub key).or (state.get sub key) := by
  cases found : src.get sub key with
  | some value =>
      rw [Option.some_or]
      exact get_batch_written state.db (importBatch src) _ value (import_batch_distinct src)
        ((mem_import_batch src _ value).mpr ⟨sub, key, rfl, found⟩)
  | none =>
      rw [Option.none_or]
      refine get_batch_absent state.db (importBatch src) _ ?_
      rw [mem_import_keys, found]
      simp

end RocksState

inductive RocksOp where
  | call (call : StoreCall)
  | importFrom (src : MemState)

def rocksOp (state : RocksState δ) : RocksOp → RocksState δ × StoreReply
  | .call call => rocksCall state call
  | .importFrom src => (state.importFrom src, .done)

def ImportPreserves (state : RocksState δ) (src : MemState) : Prop :=
  (state.importFrom src).root.2 = src.root ∧ ∀ sub key, (state.importFrom src).get sub key = src.get sub key

theorem import_preserves_of_covered (state : RocksState δ) (src : MemState)
    (covered : ∀ sub key, src.get sub key = none → state.get sub key = none) : ImportPreserves state src := by
  have mirrors : Mirrors (state.importFrom src) src := by
    intro sub key
    rw [RocksState.get_import]
    cases found : src.get sub key with
    | some value => rfl
    | none => exact covered sub key found
  exact ⟨root_mirrors _ src mirrors, mirrors⟩

theorem import_preserves_iff (ops : List RocksOp) (src : MemState) :
    ImportPreserves (runCalls rocksOp (RocksState.new : RocksState δ) ops) src ↔
      ∀ sub key, src.get sub key = none → (runCalls rocksOp (RocksState.new : RocksState δ) ops).get sub key = none := by
  constructor
  · rintro ⟨_, agrees⟩ sub key absent
    have kept := agrees sub key
    rwa [RocksState.get_import, absent, Option.none_or] at kept
  · exact import_preserves_of_covered _ src

end

open Sample in
theorem stale_key_survives_import :
    let state := runCalls rocksOp (RocksState.new : RocksState (Std.ExtTreeMap (List U8) (List U8)))
      [.call (.put .accounts [1] [100]), .call .root]
    let src := MemState.new.put .accounts [2] [50]
    (state.importFrom src).get .accounts [1] = some [100] ∧ src.get .accounts [1] = none ∧
      (state.importFrom src).root.2 ≠ src.root ∧ ¬ ImportPreserves state src := by
  have stale : ((runCalls rocksOp (RocksState.new : RocksState (Std.ExtTreeMap (List U8) (List U8)))
      [.call (.put .accounts [1] [100]), .call .root]).importFrom (MemState.new.put .accounts [2] [50])).root.2 ≠
        (MemState.new.put .accounts [2] [50]).root := by decide +kernel
  exact ⟨by decide +kernel, by decide +kernel, stale, fun preserves => stale preserves.1⟩

end PyGrove.State
