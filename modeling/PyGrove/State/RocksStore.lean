import Mathlib.Data.List.Sort
import PyGrove.Lib.Steps
import PyGrove.State.Store

set_option autoImplicit false

namespace PyGrove.State

open Words Steps PyGrove.Core

-- The rocksdb crate as far as the store relies on it: a map of byte strings
-- whose iterator walks the keys in lexicographic order. No call fails.
class RocksDb (δ : Type) where
  empty : δ
  put : δ → List U8 → List U8 → δ
  get : δ → List U8 → Option (List U8)
  iterator : δ → List (List U8 × List U8)
  get_empty : ∀ key, get empty key = none
  get_put : ∀ db key value key', get (put db key value) key' = if key = key' then some value else get db key'
  sorted : ∀ db, (iterator db).Pairwise fun a b => compare a.1 b.1 = .lt
  mem_iterator : ∀ db key value, (key, value) ∈ iterator db ↔ get db key = some value

theorem compare_keys_asymm (a b : List U8) (less : compare a b = .lt) : compare b a ≠ .lt := by
  rw [@Std.OrientedCmp.eq_swap _ compare _ b a, less]
  decide

theorem sorted_entries_eq (a b : List (List U8 × List U8)) (sortedA : a.Pairwise fun x y => compare x.1 y.1 = .lt)
    (sortedB : b.Pairwise fun x y => compare x.1 y.1 = .lt) (same : ∀ entry, entry ∈ a ↔ entry ∈ b) : a = b := by
  have antisymm : Std.Antisymm fun x y : List U8 × List U8 => compare x.1 y.1 = .lt :=
    ⟨fun x y less greater => absurd greater (compare_keys_asymm x.1 y.1 less)⟩
  have irrefl : Std.Irrefl fun x y : List U8 × List U8 => compare x.1 y.1 = .lt :=
    ⟨fun x less => compare_keys_asymm x.1 x.1 less less⟩
  exact List.Pairwise.eq_of_mem_iff sortedA sortedB same

theorem iterator_ext {δ : Type} [RocksDb δ] (a b : δ) (same : ∀ key, RocksDb.get a key = RocksDb.get b key) :
    RocksDb.iterator a = RocksDb.iterator b := by
  refine sorted_entries_eq _ _ (RocksDb.sorted a) (RocksDb.sorted b) ?_
  rintro ⟨key, value⟩
  rw [RocksDb.mem_iterator, RocksDb.mem_iterator, same]

instance : RocksDb (Std.ExtTreeMap (List U8) (List U8)) where
  empty := ∅
  put := fun db key value => db.insert key value
  get := fun db key => db[key]?
  iterator := fun db => db.toList
  get_empty := fun key => by simp
  get_put := by
    intro db key value key'
    simp only [Std.ExtTreeMap.getElem?_insert, Std.LawfulEqCmp.compare_eq_iff_eq]
  sorted := fun db => Std.ExtTreeMap.ordered_keys_toList
  mem_iterator := fun db key value => Std.ExtTreeMap.mem_toList_iff_getElem?_eq_some

def encodeKey (sub : Subtree) (key : List U8) : List U8 := sub.toU8 :: key

theorem encode_key_inj (sub sub' : Subtree) (key key' : List U8) :
    encodeKey sub key = encodeKey sub' key' ↔ sub = sub' ∧ key = key' := by
  rw [encodeKey, encodeKey, List.cons.injEq]
  exact and_congr_left fun _ => ⟨subtree_to_u8_inj sub sub', congrArg Subtree.toU8⟩

def walkRecord : List U8 × List U8 → List U8
  | ([], _) => []
  | (tag :: key, value) => tag :: leBytes 4 key.length ++ key ++ leBytes 4 value.length ++ value

section
variable {δ : Type} [RocksDb δ]

def walkBuffer (db : δ) : List U8 := (RocksDb.iterator db).flatMap walkRecord

def walkRoot [HashFns] (db : δ) : Bytes 32 :=
  truncateTo32 (hashWithDomain .blake3Xof512 "memroot" (walkBuffer db))

end

structure RocksState (δ : Type) [RocksDb δ] [HashFns] where
  db : δ
  cachedRoot : Option (Bytes 32)
  tagged : ∀ full value, RocksDb.get db full = some value → ∃ sub key, full = encodeKey sub key
  fresh : ∀ cached, cachedRoot = some cached → cached = walkRoot db

namespace RocksState

section
variable {δ : Type} [RocksDb δ] [HashFns]

def openDb (db : δ) (tagged : ∀ full value, RocksDb.get db full = some value → ∃ sub key, full = encodeKey sub key) :
    RocksState δ :=
  ⟨db, none, tagged, by simp⟩

def new : RocksState δ :=
  openDb RocksDb.empty fun full value found => by simp [RocksDb.get_empty] at found

theorem put_tagged (state : RocksState δ) (sub : Subtree) (key value full found : List U8)
    (present : RocksDb.get (RocksDb.put state.db (encodeKey sub key) value) full = some found) :
    ∃ sub' key', full = encodeKey sub' key' := by
  rw [RocksDb.get_put] at present
  by_cases same : encodeKey sub key = full
  · exact ⟨sub, key, same.symm⟩
  · rw [if_neg same] at present
    exact state.tagged full found present

def put (state : RocksState δ) (sub : Subtree) (key value : List U8) : RocksState δ :=
  ⟨RocksDb.put state.db (encodeKey sub key) value, none, put_tagged state sub key value, by simp⟩

def get (state : RocksState δ) (sub : Subtree) (key : List U8) : Option (List U8) :=
  RocksDb.get state.db (encodeKey sub key)

-- root() takes &self: the cache it fills sits behind a mutex.
def root (state : RocksState δ) : RocksState δ × Bytes 32 :=
  match state.cachedRoot with
  | some cached => (state, cached)
  | none => (⟨state.db, some (walkRoot state.db), state.tagged, by simp⟩, walkRoot state.db)

def reopen (state : RocksState δ) : RocksState δ := openDb state.db state.tagged

theorem get_new (sub : Subtree) (key : List U8) : (new : RocksState δ).get sub key = none :=
  RocksDb.get_empty _

theorem get_put (state : RocksState δ) (sub sub' : Subtree) (key key' value : List U8) :
    (state.put sub key value).get sub' key' = if sub = sub' ∧ key = key' then some value else state.get sub' key' := by
  simp only [get, put, RocksDb.get_put, encode_key_inj]

theorem get_root (state : RocksState δ) (sub : Subtree) (key : List U8) : state.root.1.get sub key = state.get sub key := by
  rw [root]
  split <;> rfl

theorem root_value (state : RocksState δ) : state.root.2 = walkRoot state.db := by
  rw [root]
  split
  · rename_i cached hit
    exact state.fresh cached hit
  · rfl

theorem get_db_ext (a b : RocksState δ) (same : ∀ sub key, a.get sub key = b.get sub key) (full : List U8) :
    RocksDb.get a.db full = RocksDb.get b.db full := by
  have wrote : ∀ value, RocksDb.get a.db full = some value ↔ RocksDb.get b.db full = some value := by
    intro value
    constructor
    · intro found
      obtain ⟨sub, key, rfl⟩ := a.tagged full value found
      exact (same sub key).symm.trans found
    · intro found
      obtain ⟨sub, key, rfl⟩ := b.tagged full value found
      exact (same sub key).trans found
  exact Option.ext wrote

theorem root_ext (a b : RocksState δ) (same : ∀ sub key, a.get sub key = b.get sub key) : a.root.2 = b.root.2 := by
  rw [root_value, root_value, walkRoot, walkRoot, walkBuffer, walkBuffer, iterator_ext a.db b.db (get_db_ext a b same)]

end

end RocksState

instance {δ : Type} [RocksDb δ] [HashFns] : StateStore (RocksState δ) where
  put := RocksState.put
  get := RocksState.get
  root := fun state => state.root.2
  get_put := fun state sub key value sub' key' => RocksState.get_put state sub sub' key key' value
  root_ext := RocksState.root_ext

theorem mem_entry_iff (mem : MemState) (full value : List U8) :
    (full, value) ∈ mem.data.toList.map (fun entry => (entry.1.1 :: entry.1.2, entry.2)) ↔
      ∃ sub key, full = encodeKey sub key ∧ mem.get sub key = some value := by
  rw [List.mem_map]
  constructor
  · rintro ⟨⟨⟨tag, key⟩, held⟩, member, same⟩
    obtain ⟨rfl, rfl⟩ := Prod.mk.inj same
    have found := Std.ExtTreeMap.mem_toList_iff_getElem?_eq_some.mp member
    obtain ⟨sub, rfl⟩ := mem.tagged (tag, key) (Std.ExtTreeMap.mem_iff_isSome_getElem?.mpr (by rw [found]; rfl))
    exact ⟨sub, key, rfl, found⟩
  · rintro ⟨sub, key, rfl, found⟩
    exact ⟨((sub.toU8, key), value), Std.ExtTreeMap.mem_toList_iff_getElem?_eq_some.mpr found, rfl⟩

-- The pair order of one map is the byte order of the other once the tag is
-- written in front of the key.
theorem mem_entries_sorted (mem : MemState) :
    (mem.data.toList.map fun entry => (entry.1.1 :: entry.1.2, entry.2)).Pairwise fun a b => compare a.1 b.1 = .lt := by
  rw [List.pairwise_map]
  refine Std.ExtTreeMap.ordered_keys_toList.imp ?_
  intro a b less
  rw [List.compare_cons_cons]
  exact less

section
variable {δ : Type} [RocksDb δ] [HashFns]

def Mirrors (rocks : RocksState δ) (mem : MemState) : Prop :=
  ∀ sub key, rocks.get sub key = mem.get sub key

theorem iterator_mirrors (rocks : RocksState δ) (mem : MemState) (mirrors : Mirrors rocks mem) :
    RocksDb.iterator rocks.db = mem.data.toList.map fun entry => (entry.1.1 :: entry.1.2, entry.2) := by
  refine sorted_entries_eq _ _ (RocksDb.sorted rocks.db) (mem_entries_sorted mem) ?_
  rintro ⟨full, value⟩
  rw [RocksDb.mem_iterator, mem_entry_iff]
  constructor
  · intro found
    obtain ⟨sub, key, rfl⟩ := rocks.tagged full value found
    exact ⟨sub, key, rfl, (mirrors sub key).symm.trans found⟩
  · rintro ⟨sub, key, rfl, found⟩
    exact (mirrors sub key).trans found

theorem root_mirrors (rocks : RocksState δ) (mem : MemState) (mirrors : Mirrors rocks mem) : rocks.root.2 = mem.root := by
  have buffer : walkBuffer rocks.db = mem.rootBuffer := by
    rw [walkBuffer, iterator_mirrors rocks mem mirrors, List.flatMap_map]
    rfl
  rw [RocksState.root_value, walkRoot, buffer, MemState.root]

inductive StoreCall where
  | put (sub : Subtree) (key value : List U8)
  | get (sub : Subtree) (key : List U8)
  | root
  | reopen

inductive StoreReply where
  | done
  | value (found : Option (List U8))
  | digest (root : Bytes 32)
deriving DecidableEq

def rocksCall (state : RocksState δ) : StoreCall → RocksState δ × StoreReply
  | .put sub key value => (state.put sub key value, .done)
  | .get sub key => (state, .value (state.get sub key))
  | .root => (state.root.1, .digest state.root.2)
  | .reopen => (state.reopen, .done)

def memCall (state : MemState) : StoreCall → MemState × StoreReply
  | .put sub key value => (state.put sub key value, .done)
  | .get sub key => (state, .value (state.get sub key))
  | .root => (state, .digest state.root)
  | .reopen => (state, .done)

theorem call_mirrors (rocks : RocksState δ) (mem : MemState) (call : StoreCall) (mirrors : Mirrors rocks mem) :
    (rocksCall rocks call).2 = (memCall mem call).2 ∧ Mirrors (rocksCall rocks call).1 (memCall mem call).1 := by
  cases call with
  | put sub key value =>
      refine ⟨rfl, ?_⟩
      intro sub' key'
      rw [rocksCall, memCall, RocksState.get_put, MemState.get_put, mirrors]
  | get sub key => exact ⟨congrArg StoreReply.value (mirrors sub key), mirrors⟩
  | root =>
      refine ⟨congrArg StoreReply.digest (root_mirrors rocks mem mirrors), ?_⟩
      intro sub key
      exact (RocksState.get_root rocks sub key).trans (mirrors sub key)
  | reopen => exact ⟨rfl, mirrors⟩

theorem backends_agree (calls : List StoreCall) :
    replies rocksCall (RocksState.new : RocksState δ) calls = replies memCall MemState.new calls := by
  refine replies_simulated rocksCall memCall Mirrors call_mirrors RocksState.new MemState.new ?_ calls
  intro sub key
  rw [RocksState.get_new, MemState.get_new]

end

end PyGrove.State
