import PyGrove.Core.Tx
import PyGrove.Lib.Codec
import PyGrove.State.Store

set_option autoImplicit false

namespace PyGrove.State

open Words PyGrove.Core

structure Account where
  balance : U128
  nonce : U64
  pubkey : List U8
  sigAlgo : U8
deriving DecidableEq

def Account.empty : Account := ⟨0, 0, [], 0⟩

structure Reflection where
  hashrateProxy : U128
  activeAddresses : U64
  feeSum : U128
  emission : U128
  rHQ64 : I128
  rAQ64 : I128
  stabilityBias : I8
deriving DecidableEq

structure AttestRecord where
  jobId : Bytes 32
  roundId : U64
  modelHash : Bytes 32
  dpEpsilonMilli : U32
  coordinator : Bytes 20
  blockHeight : U64
  blockTimestampMs : U64
deriving DecidableEq

structure PendingCryptoUpgrade where
  targetHeight : U64
  sigAlgo : U8
  hashAlgo : U8
  announcedAtHeight : U64
deriving DecidableEq

structure ActiveCrypto where
  sigAlgo : U8
  hashAlgo : U8
  activatedAtHeight : U64
deriving DecidableEq

structure GovernanceSigner where
  signerId : Bytes 32
  sigAlgo : U8
  pubkey : List U8
deriving DecidableEq

structure GovernanceConfig where
  epoch : U64
  threshold : U32
  signers : List GovernanceSigner
deriving DecidableEq

structure GovernanceSig where
  signerId : Bytes 32
  sig : List U8
deriving DecidableEq

structure GovernanceProof where
  signatures : List GovernanceSig
deriving DecidableEq

structure CoordinatorAuthority where
  jobId : Bytes 32
  coordinators : List (Bytes 20)
  registeredAtHeight : U64
deriving DecidableEq

structure PedigreeRecord where
  jobId : Bytes 32
  lotId : Bytes 16
  supplier : Bytes 32
  cageCode : Bytes 5
  attestationAuthority : Bytes 32
  attester : Bytes 20
  blockHeight : U64
  blockTimestampMs : U64
deriving DecidableEq

-- ciborium on the record types of the state. Encoding into a Vec does not
-- fail, so the map_err branches of the source are unreachable.
class StateCbor where
  account : Codec Account
  reflection : Codec Reflection
  attestRecord : Codec AttestRecord
  pendingCryptoUpgrade : Codec PendingCryptoUpgrade
  activeCrypto : Codec ActiveCrypto
  governanceConfig : Codec GovernanceConfig
  governanceProof : Codec GovernanceProof
  coordinatorAuthority : Codec CoordinatorAuthority
  pedigreeRecord : Codec PedigreeRecord

section
variable {σ α : Type} [StateStore σ]

def loadRecord (codec : Codec α) (store : σ) (sub : Subtree) (key : List U8) : Option α :=
  (StateStore.get store sub key).bind fun bytes => (codec.decode bytes).toOption

def saveRecord (codec : Codec α) (store : σ) (sub : Subtree) (key : List U8) (value : α) : σ :=
  StateStore.put store sub key (codec.encode value)

theorem load_record_put (codec : Codec α) (store : σ) (sub sub' : Subtree) (key key' bytes : List U8) :
    loadRecord codec (StateStore.put store sub key bytes) sub' key' =
      if sub = sub' ∧ key = key' then (codec.decode bytes).toOption else loadRecord codec store sub' key' := by
  simp only [loadRecord]
  rw [StateStore.get_put]
  split <;> rfl

@[simp] theorem load_record_save_self (codec : Codec α) (store : σ) (sub : Subtree) (key : List U8) (value : α) :
    loadRecord codec (saveRecord codec store sub key value) sub key = some value := by
  simp [saveRecord, load_record_put, Except.toOption]

theorem load_record_save_other {β : Type} (codec : Codec α) (other : Codec β) (store : σ) (sub sub' : Subtree)
    (key key' : List U8) (value : β) (apart : ¬ (sub = sub' ∧ key = key')) :
    loadRecord codec (saveRecord other store sub key value) sub' key' = loadRecord codec store sub' key' := by
  rw [saveRecord, load_record_put, if_neg apart]

end

namespace Accounts

variable {σ : Type} [StateStore σ] [StateCbor]

def load (store : σ) (id : AccountId) : Option Account :=
  loadRecord StateCbor.account store .accounts id.id.toList

def loadOrDefault (store : σ) (id : AccountId) : Account :=
  (load store id).getD .empty

def save (store : σ) (id : AccountId) (account : Account) : σ :=
  saveRecord StateCbor.account store .accounts id.id.toList account

theorem load_save (store : σ) (id id' : AccountId) (account : Account) :
    load (save store id account) id' = if id = id' then some account else load store id' := by
  simp only [load, save]
  by_cases same : id = id'
  · subst same
    simp
  · rw [if_neg same]
    exact load_record_save_other _ _ _ _ _ _ _ _ fun both => same (account_key_inj id id' both.2)

theorem load_or_default_save (store : σ) (id id' : AccountId) (account : Account) :
    loadOrDefault (save store id account) id' = if id = id' then account else loadOrDefault store id' := by
  simp only [loadOrDefault]
  rw [load_save]
  split <;> rfl

theorem load_put_other (store : σ) (id : AccountId) (sub : Subtree) (key value : List U8)
    (apart : sub ≠ .accounts) : load (StateStore.put store sub key value) id = load store id := by
  simp only [load]
  rw [load_record_put, if_neg fun both => apart both.1]

theorem load_or_default_put_other (store : σ) (id : AccountId) (sub : Subtree) (key value : List U8)
    (apart : sub ≠ .accounts) :
    loadOrDefault (StateStore.put store sub key value) id = loadOrDefault store id := by
  simp only [loadOrDefault]
  rw [load_put_other store id sub key value apart]

end Accounts

end PyGrove.State
