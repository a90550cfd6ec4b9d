import Mathlib.Data.List.Sort
import PyGrove.Core.Hash

set_option autoImplicit false

namespace PyGrove.Core

open Words

structure AccountId where
  id : Bytes 20
deriving DecidableEq

theorem account_key_inj (a b : AccountId) (same : a.id.toList = b.id.toList) : a = b := by
  cases a
  cases b
  exact congrArg AccountId.mk (List.Vector.eq _ _ same)

inductive PubKeyRef where
  | known (id : AccountId)
  | inline (bytes : List U8)
deriving DecidableEq

inductive TxCall where
  | transfer (toAccount : AccountId) (amount : U128)
  | deployContract (codeRef : Bytes 32) (initArgs : List U8)
  | callContract (contract : AccountId) (method : String) (args : List U8)
  | upgradeCrypto (targetHeight : U64) (sigAlgo hashAlgo : U8) (govProof : List U8)
  | attestRound (jobId : Bytes 32) (roundId : U64) (modelHash : Bytes 32) (dpEpsilonMilli : U32)
  | registerAttestCoordinator (jobId : Bytes 32) (coordinators : List AccountId) (govProof : List U8)
  | setGovernance (configCbor govProof : List U8)
  | attestPedigree (jobId : Bytes 32) (lotId : Bytes 16) (supplier : Bytes 32) (cageCode : Bytes 5)
      (attestationAuthority : Bytes 32)
deriving DecidableEq

structure TxBody where
  nonce : U64
  fromAccount : AccountId
  call : TxCall
  feeSat : U64
  gasLimit : U32
  witnessHash : Bytes 32
deriving DecidableEq

structure Witness where
  sigAlgo : U8
  sig : List U8
  pubkey : PubKeyRef
deriving DecidableEq

-- ids.sort_by_key(|a| a.0): equal keys are equal ids, so stability is not observable.
def sortIds (ids : List AccountId) : List AccountId :=
  ids.insertionSort fun a b => a.id.toList ≤ b.id.toList

-- The bytes hash_call feeds to the hasher. A length is cast to u32 first;
-- leBytes 4 drops the higher bits exactly as the cast does.
def hashCall : TxCall → List U8
  | .transfer toAccount amount => 0 :: toAccount.id.toList ++ leBytes 16 amount.toNat
  | .deployContract codeRef initArgs =>
      1 :: codeRef.toList ++ leBytes 4 initArgs.length ++ initArgs
  | .callContract contract method args =>
      2 :: contract.id.toList ++ leBytes 4 (utf8 method).length ++ utf8 method ++
        leBytes 4 args.length ++ args
  | .upgradeCrypto targetHeight sigAlgo hashAlgo _ =>
      3 :: leBytes 8 targetHeight.toNat ++ [sigAlgo, hashAlgo]
  | .attestRound jobId roundId modelHash dpEpsilonMilli =>
      4 :: jobId.toList ++ leBytes 8 roundId.toNat ++ modelHash.toList ++ leBytes 4 dpEpsilonMilli.toNat
  | .registerAttestCoordinator jobId coordinators _ =>
      5 :: jobId.toList ++ leBytes 4 coordinators.length ++
        (sortIds coordinators).flatMap (fun a => a.id.toList)
  | .attestPedigree jobId lotId supplier cageCode attestationAuthority =>
      6 :: jobId.toList ++ lotId.toList ++ supplier.toList ++ cageCode.toList ++ attestationAuthority.toList
  | .setGovernance configCbor _ => 7 :: leBytes 4 configCbor.length ++ configCbor

def Witness.preimage (witness : Witness) : List U8 :=
  ascii "PGwit\x00" ++ [witness.sigAlgo] ++ leBytes 4 witness.sig.length ++ witness.sig ++
    match witness.pubkey with
    | .known id => 0 :: id.id.toList
    | .inline bytes => 1 :: leBytes 4 bytes.length ++ bytes

def TxBody.signingPreimage (tx : TxBody) : List U8 :=
  ascii "PGtxsign\x00" ++ leBytes 8 tx.nonce.toNat ++ tx.fromAccount.id.toList ++ hashCall tx.call ++
    leBytes 8 tx.feeSat.toNat

def TxBody.bodyPreimage (tx : TxBody) : List U8 :=
  ascii "PGtxbody\x00" ++ leBytes 8 tx.nonce.toNat ++ tx.fromAccount.id.toList ++ hashCall tx.call ++
    leBytes 8 tx.feeSat.toNat ++ leBytes 4 tx.gasLimit.toNat ++ tx.witnessHash.toList

def vecRootPreimage (domain : List U8) (leaves : List (Bytes 32)) : List U8 :=
  domain ++ leBytes 4 leaves.length ++ leaves.flatMap (fun leaf => leaf.toList)

section
variable [HashFns]

def AccountId.fromPubkey (pubkeyBytes : List U8) : AccountId :=
  ⟨⟨(HashFns.blake3 (ascii "PGaddr\x00" ++ pubkeyBytes)).toList.take 20, by simp⟩⟩

def Witness.hash (witness : Witness) : Bytes 32 := HashFns.blake3 witness.preimage

def TxBody.signingHash (tx : TxBody) : Bytes 32 := HashFns.blake3 tx.signingPreimage

def TxBody.bodyHash (tx : TxBody) : Bytes 32 := HashFns.blake3 tx.bodyPreimage

def vecRoot (domain : List U8) (leaves : List (Bytes 32)) : Bytes 32 :=
  HashFns.blake3 (vecRootPreimage domain leaves)

end

def AccountId.fromCoinbase (coinbase : Bytes 32) : AccountId :=
  ⟨⟨coinbase.toList.take 20, by simp⟩⟩

structure BlockHeader where
  version : U32
  height : U64
  parent : Bytes 32
  timestampMs : U64
  bits : U32
  nonce : U64
  txRoot : Bytes 32
  witnessRoot : Bytes 32
  stateRoot : Bytes 32
  reflectRoot : Bytes 32
  coinbase : Bytes 32
  sigAlgo : U8
  hashAlgo : U8
deriving DecidableEq

structure BlockBody where
  txs : List TxBody
  witnesses : List Witness
deriving DecidableEq

structure Block where
  header : BlockHeader
  body : BlockBody
deriving DecidableEq

section
variable [HashFns]

def BlockBody.txRoot (body : BlockBody) : Bytes 32 :=
  vecRoot (ascii "PGtxroot\x00") (body.txs.map TxBody.bodyHash)

def BlockBody.witnessRoot (body : BlockBody) : Bytes 32 :=
  vecRoot (ascii "PGwitroot\x00") (body.witnesses.map Witness.hash)

end

end PyGrove.Core
