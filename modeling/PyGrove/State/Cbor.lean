import PyGrove.Core.Cbor
import PyGrove.Crypto.Verify
import PyGrove.State.Records

set_option autoImplicit false

/- The serde layout of the state records. The formats below are what the codec
   parameters stand for. -/
namespace PyGrove.State

open Words Cbor PyGrove.Core Crypto

def accountWire : Wire Account :=
  ((((wideWord 128).field (ascii "balance")).both
    (((word 64).field (ascii "nonce")).both
      ((byteString.field (ascii "pubkey")).both ((word 8).field (ascii "sig_algo"))))).record 4).iso
    (fun (balance, nonce, pubkey, sigAlgo) => { balance, nonce, pubkey, sigAlgo })
    (fun acct => (acct.balance, acct.nonce, acct.pubkey, acct.sigAlgo)) fun _ => rfl

def reflectionWire : Wire Reflection :=
  ((((wideWord 128).field (ascii "hashrate_proxy")).both
    (((word 64).field (ascii "active_addresses")).both
      (((wideWord 128).field (ascii "fee_sum")).both
        (((wideWord 128).field (ascii "emission")).both
          (((signedWord 128).field (ascii "r_h_q64")).both
            (((signedWord 128).field (ascii "r_a_q64")).both
              ((signedWord 8).field (ascii "stability_bias")))))))).record 7).iso
    (fun (hashrateProxy, activeAddresses, feeSum, emission, rHQ64, rAQ64, stabilityBias) =>
      { hashrateProxy, activeAddresses, feeSum, emission, rHQ64, rAQ64, stabilityBias })
    (fun r => (r.hashrateProxy, r.activeAddresses, r.feeSum, r.emission, r.rHQ64, r.rAQ64, r.stabilityBias))
    fun _ => rfl

def attestRecordWire : Wire AttestRecord :=
  ((((fixedArray 32).field (ascii "job_id")).both
    (((word 64).field (ascii "round_id")).both
      (((fixedArray 32).field (ascii "model_hash")).both
        (((word 32).field (ascii "dp_epsilon_milli")).both
          (((fixedArray 20).field (ascii "coordinator")).both
            (((word 64).field (ascii "block_height")).both
              ((word 64).field (ascii "block_timestamp_ms")))))))).record 7).iso
    (fun (jobId, roundId, modelHash, dpEpsilonMilli, coordinator, blockHeight, blockTimestampMs) =>
      { jobId, roundId, modelHash, dpEpsilonMilli, coordinator, blockHeight, blockTimestampMs })
    (fun r => (r.jobId, r.roundId, r.modelHash, r.dpEpsilonMilli, r.coordinator, r.blockHeight, r.blockTimestampMs))
    fun _ => rfl

def pendingCryptoUpgradeWire : Wire PendingCryptoUpgrade :=
  ((((word 64).field (ascii "target_height")).both
    (((word 8).field (ascii "sig_algo")).both
      (((word 8).field (ascii "hash_algo")).both ((word 64).field (ascii "announced_at_height"))))).record 4).iso
    (fun (targetHeight, sigAlgo, hashAlgo, announcedAtHeight) => { targetHeight, sigAlgo, hashAlgo, announcedAtHeight })
    (fun r => (r.targetHeight, r.sigAlgo, r.hashAlgo, r.announcedAtHeight)) fun _ => rfl

def activeCryptoWire : Wire ActiveCrypto :=
  ((((word 8).field (ascii "sig_algo")).both
    (((word 8).field (ascii "hash_algo")).both ((word 64).field (ascii "activated_at_height")))).record 3).iso
    (fun (sigAlgo, hashAlgo, activatedAtHeight) => { sigAlgo, hashAlgo, activatedAtHeight })
    (fun r => (r.sigAlgo, r.hashAlgo, r.activatedAtHeight)) fun _ => rfl

def governanceSignerWire : Wire GovernanceSigner :=
  ((((fixedArray 32).field (ascii "signer_id")).both
    (((word 8).field (ascii "sig_algo")).both (byteString.field (ascii "pubkey")))).record 3).iso
    (fun (signerId, sigAlgo, pubkey) => { signerId, sigAlgo, pubkey })
    (fun s => (s.signerId, s.sigAlgo, s.pubkey)) fun _ => rfl

def governanceConfigWire : Wire GovernanceConfig :=
  ((((word 64).field (ascii "epoch")).both
    (((word 32).field (ascii "threshold")).both
      ((array governanceSignerWire).field (ascii "signers")))).record 3).iso
    (fun (epoch, threshold, signers) => { epoch, threshold, signers })
    (fun cfg => (cfg.epoch, cfg.threshold, cfg.signers)) fun _ => rfl

def governanceSigWire : Wire GovernanceSig :=
  ((((fixedArray 32).field (ascii "signer_id")).both (byteString.field (ascii "sig"))).record 2).iso
    (fun (signerId, sig) => { signerId, sig }) (fun s => (s.signerId, s.sig)) fun _ => rfl

def governanceProofWire : Wire GovernanceProof :=
  (((array governanceSigWire).field (ascii "signatures")).record 1).iso GovernanceProof.mk GovernanceProof.signatures
    fun _ => rfl

def coordinatorAuthorityWire : Wire CoordinatorAuthority :=
  ((((fixedArray 32).field (ascii "job_id")).both
    (((array (fixedArray 20)).field (ascii "coordinators")).both
      ((word 64).field (ascii "registered_at_height")))).record 3).iso
    (fun (jobId, coordinators, registeredAtHeight) => { jobId, coordinators, registeredAtHeight })
    (fun r => (r.jobId, r.coordinators, r.registeredAtHeight)) fun _ => rfl

def pedigreeRecordWire : Wire PedigreeRecord :=
  ((((fixedArray 32).field (ascii "job_id")).both
    (((fixedArray 16).field (ascii "lot_id")).both
      (((fixedArray 32).field (ascii "supplier")).both
        (((fixedArray 5).field (ascii "cage_code")).both
          (((fixedArray 32).field (ascii "attestation_authority")).both
            (((fixedArray 20).field (ascii "attester")).both
              (((word 64).field (ascii "block_height")).both
                ((word 64).field (ascii "block_timestamp_ms"))))))))).record 8).iso
    (fun (jobId, lotId, supplier, cageCode, attestationAuthority, attester, blockHeight, blockTimestampMs) =>
      { jobId, lotId, supplier, cageCode, attestationAuthority, attester, blockHeight, blockTimestampMs })
    (fun r => (r.jobId, r.lotId, r.supplier, r.cageCode, r.attestationAuthority, r.attester, r.blockHeight,
      r.blockTimestampMs)) fun _ => rfl

end PyGrove.State

/- A closed environment for runs on concrete blocks: the serde layouts above,
   a polynomial digest in the place of the hash crates, and a signature that
   spells out the algorithm, the key and the message. -/
namespace PyGrove.Sample

open Words PyGrove.Core Crypto State

scoped instance cbor : StateCbor where
  account := accountWire.codec
  reflection := reflectionWire.codec
  attestRecord := attestRecordWire.codec
  pendingCryptoUpgrade := pendingCryptoUpgradeWire.codec
  activeCrypto := activeCryptoWire.codec
  governanceConfig := governanceConfigWire.codec
  governanceProof := governanceProofWire.codec
  coordinatorAuthority := coordinatorAuthorityWire.codec
  pedigreeRecord := pedigreeRecordWire.codec

def digest (n : Nat) (bytes : List U8) : Bytes n :=
  ⟨leBytes n (bytes.foldl (fun acc byte => (acc * 257 + byte.toNat + 1) % 256 ^ n) 0), length_le_bytes _ _⟩

scoped instance hashes : HashFns where
  blake3 := digest 32
  blake3Xof := digest 64
  shake256 := digest 64
  sha3_512 := digest 64

def sign (algo : U8) (pk msg : List U8) : List U8 := algo :: pk ++ msg

scoped instance sigs : SigFns where
  fips := false
  verify := fun algo pk sig msg =>
    if !(defaultAllowlistSig.contains algo) then .error (.unknownAlgo algo)
    else if sig = sign algo pk msg then .ok () else .error .badSignature

def signedTx (nonce : U64) (call : TxCall) (feeSat : U64) (algo : U8) (pk : List U8) (pubkey : PubKeyRef) :
    TxBody × Witness :=
  let unsigned : TxBody :=
    { nonce, fromAccount := .fromPubkey pk, call, feeSat, gasLimit := 21000, witnessHash := .replicate 32 0 }
  let witness : Witness := { sigAlgo := algo, sig := sign algo pk unsigned.signingHash.toList, pubkey }
  ({ unsigned with witnessHash := witness.hash }, witness)

def header (height : U64) (parent : Bytes 32) (timestampMs : U64) (bits : U32) : BlockHeader :=
  { version := 1, height, parent, timestampMs, bits, nonce := 0
    txRoot := .replicate 32 0
    witnessRoot := .replicate 32 0
    stateRoot := .replicate 32 0
    reflectRoot := .replicate 32 0
    coinbase := .replicate 32 9
    sigAlgo := 3
    hashAlgo := 1 }

def block (base : BlockHeader) (signed : List (TxBody × Witness)) : Block :=
  let body : BlockBody := { txs := signed.map Prod.fst, witnesses := signed.map Prod.snd }
  { header := { base with txRoot := body.txRoot, witnessRoot := body.witnessRoot }, body }

end PyGrove.Sample
