import PyGrove.Core.Cbor
import PyGrove.Lib.Frames

set_option autoImplicit false

namespace PyGrove.Node

open Words Frames PyGrove.Core

def blockCodec : Codec Block := blockWire.codec

inductive WriteOutcome where
  | done
  | fails (written : Nat)
deriving DecidableEq

inductive StoreError where
  | io
deriving DecidableEq

structure ChainStore where
  log : List U8
  tip : Option Block
  count : U64
deriving DecidableEq

def readAllFromDisk (log : List U8) : Except ReadError (List Block) := readAll blockCodec log

namespace ChainStore

def openLog (log : List U8) : Except ReadError ChainStore :=
  match readAllFromDisk log with
  | .error e => .error e
  | .ok blocks => .ok { log, tip := blocks.getLast?, count := BitVec.ofNat 64 blocks.length }

-- The cache moves only after the whole record is written.
def append (store : ChainStore) (block : Block) : WriteOutcome → ChainStore × Except StoreError Unit
  | .done =>
      ({ log := store.log ++ record blockCodec block
         tip := some block
         count := store.count + 1 }, .ok ())
  | .fails written => ({ store with log := store.log ++ (record blockCodec block).take written }, .error .io)

def loadAll (store : ChainStore) : Except ReadError (List Block) := readAllFromDisk store.log

def len (store : ChainStore) : U64 := store.count

def recent (store : ChainStore) (n : Nat) : Except ReadError (List Block) :=
  match store.loadAll with
  | .error e => .error e
  | .ok all => .ok (all.drop (all.length - n)).reverse

def getByHeight (store : ChainStore) (height : U64) : Except ReadError (Option Block) :=
  match store.loadAll with
  | .error e => .error e
  | .ok all => .ok (all.find? fun block => block.header.height == height)

structure Holds (store : ChainStore) (blocks : List Block) : Prop where
  whole : Records blockCodec store.log blocks
  tip : store.tip = blocks.getLast?
  count : store.count = BitVec.ofNat 64 blocks.length

theorem holds_load (store : ChainStore) (blocks : List Block) (holds : store.Holds blocks) :
    store.loadAll = .ok blocks :=
  records_read blockCodec store.log blocks holds.whole

theorem holds_unique (store : ChainStore) (a b : List Block) (first : store.Holds a) (second : store.Holds b) :
    a = b := by
  have same := holds_load store a first
  rw [holds_load store b second] at same
  exact (Except.ok.inj same).symm

theorem holds_append (store : ChainStore) (blocks : List Block) (block : Block) (holds : store.Holds blocks)
    (sized : (blockCodec.encode block).length < 2 ^ 32) :
    (store.append block .done).1.Holds (blocks ++ [block]) := by
  refine ⟨records_snoc blockCodec store.log blocks block holds.whole sized, ?_, ?_⟩
  · rw [List.getLast?_append, List.getLast?_singleton]
    rfl
  · rw [append, holds.count, List.length_append, List.length_singleton, BitVec.ofNat_add]
    rfl

end ChainStore

end PyGrove.Node
