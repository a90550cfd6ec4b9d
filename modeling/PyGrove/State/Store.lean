import Std.Data.ExtTreeMap
import PyGrove.Core.Hash

set_option autoImplicit false

namespace PyGrove.State

open Words PyGrove.Core

-- Subtree::Meta is metadata here: meta is a keyword of Lean.
inductive Subtree where
  | accounts
  | code
  | storage
  | metadata
  | reflect
  | blocks
  | headers
  | witnesses
  | attest
deriving DecidableEq

def Subtree.toU8 : Subtree → U8
  | .accounts => 0
  | .code => 1
  | .storage => 2
  | .metadata => 3
  | .reflect => 4
  | .blocks => 5
  | .headers => 6
  | .witnesses => 7
  | .attest => 8

theorem subtree_to_u8_inj (a b : Subtree) (same : a.toU8 = b.toU8) : a = b := by
  cases a <;> cases b <;> first | rfl | exact absurd same (by decide)

-- The trait with the laws its callers rely on: a read returns the last write
-- under that subtree and key, and the root is a function of what can be read.
class StateStore (σ : Type) where
  put : σ → Subtree → List U8 → List U8 → σ
  get : σ → Subtree → List U8 → Option (List U8)
  root : σ → Bytes 32
  get_put : ∀ store sub key value sub' key',
    get (put store sub key value) sub' key' =
      if sub = sub' ∧ key = key' then some value else get store sub' key'
  root_ext : ∀ a b, (∀ sub key, get a sub key = get b sub key) → root a = root b

def keyCompare : U8 × List U8 → U8 × List U8 → Ordering :=
  compareLex (compareOn Prod.fst) (compareOn Prod.snd)

instance : Std.TransCmp keyCompare :=
  inferInstanceAs (Std.TransCmp (compareLex (compareOn Prod.fst) (compareOn Prod.snd)))

instance : Std.LawfulEqCmp keyCompare where
  eq_of_compare := by
    intro a b same
    simp only [keyCompare, compareLex, compareOn, Ordering.then_eq_eq, Std.LawfulEqCmp.compare_eq_iff_eq] at same
    exact Prod.ext same.1 same.2

structure MemState where
  data : Std.ExtTreeMap (U8 × List U8) (List U8) keyCompare
  tagged : ∀ entry, entry ∈ data → ∃ sub : Subtree, entry.1 = sub.toU8

namespace MemState

def new : MemState := ⟨∅, fun _ present => absurd present (by simp)⟩

theorem put_tagged (state : MemState) (sub : Subtree) (key value : List U8) (entry : U8 × List U8)
    (present : entry ∈ state.data.insert (sub.toU8, key) value) : ∃ other : Subtree, entry.1 = other.toU8 := by
  rcases Std.ExtTreeMap.mem_insert.mp present with same | old
  · rw [Std.LawfulEqCmp.compare_eq_iff_eq] at same
    exact ⟨sub, by rw [← same]⟩
  · exact state.tagged entry old

def put (state : MemState) (sub : Subtree) (key value : List U8) : MemState :=
  ⟨state.data.insert (sub.toU8, key) value, put_tagged state sub key value⟩

def get (state : MemState) (sub : Subtree) (key : List U8) : Option (List U8) :=
  state.data[(sub.toU8, key)]?

def rootRecord (entry : (U8 × List U8) × List U8) : List U8 :=
  entry.1.1 :: leBytes 4 entry.1.2.length ++ entry.1.2 ++ leBytes 4 entry.2.length ++ entry.2

def rootBuffer (state : MemState) : List U8 := state.data.toList.flatMap rootRecord

def root [HashFns] (state : MemState) : Bytes 32 :=
  truncateTo32 (hashWithDomain .blake3Xof512 "memroot" state.rootBuffer)

theorem get_new (sub : Subtree) (key : List U8) : new.get sub key = none := by
  simp [new, get]

theorem get_put (state : MemState) (sub sub' : Subtree) (key key' value : List U8) :
    (state.put sub key value).get sub' key' = if sub = sub' ∧ key = key' then some value else state.get sub' key' := by
  simp only [get, put, Std.ExtTreeMap.getElem?_insert, Std.LawfulEqCmp.compare_eq_iff_eq, Prod.mk.injEq]
  by_cases same : sub = sub' ∧ key = key'
  · simp [same]
  · have apart : ¬ (sub.toU8 = sub'.toU8 ∧ key = key') := fun both =>
      same ⟨subtree_to_u8_inj sub sub' both.1, both.2⟩
    rw [if_neg apart, if_neg same]

theorem ext_get (a b : MemState) (same : ∀ sub key, a.get sub key = b.get sub key) : a = b := by
  have data : a.data = b.data := by
    apply Std.ExtTreeMap.ext_getElem?
    intro entry
    by_cases tagged : ∃ sub : Subtree, entry.1 = sub.toU8
    · obtain ⟨sub, tag⟩ := tagged
      have read := same sub entry.2
      rwa [get, get, ← tag] at read
    · rw [Std.ExtTreeMap.getElem?_eq_none fun present => tagged (a.tagged entry present),
        Std.ExtTreeMap.getElem?_eq_none fun present => tagged (b.tagged entry present)]
  cases a
  cases b
  cases data
  rfl

end MemState

instance [HashFns] : StateStore MemState where
  put := MemState.put
  get := MemState.get
  root := MemState.root
  get_put := fun state sub key value sub' key' => MemState.get_put state sub sub' key key' value
  root_ext := fun a b same => congrArg MemState.root (MemState.ext_get a b same)

end PyGrove.State
