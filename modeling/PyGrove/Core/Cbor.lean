import PyGrove.Core.Tx
import PyGrove.Lib.Cbor

set_option autoImplicit false

/- The serde layout of the block types, as ciborium writes it to the chain log. -/
namespace PyGrove.Core

open Words Cbor

def fromUtf8 (bytes : List U8) : Except String String :=
  match String.fromUTF8? ⟨(bytes.map UInt8.ofBitVec).toArray⟩ with
  | none => .error "invalid utf-8"
  | some text => .ok text

theorem from_utf8_utf8 (text : String) : fromUtf8 (utf8 text) = .ok text := by
  have bytes : (⟨((utf8 text).map UInt8.ofBitVec).toArray⟩ : ByteArray) = text.toUTF8 := by
    rw [utf8, List.map_map, show UInt8.ofBitVec ∘ UInt8.toBitVec = id from rfl, List.map_id]
  have valid : text.toUTF8.IsValidUTF8 := text.isValidUTF8
  rw [fromUtf8, bytes, String.fromUTF8?, dif_pos valid]
  rfl

theorem utf8_inj (a b : String) (same : utf8 a = utf8 b) : a = b := by
  have read := from_utf8_utf8 a
  rw [same, from_utf8_utf8] at read
  exact (Except.ok.inj read).symm

def stringWire : Wire String where
  encode := fun value => encodeHead 3 (utf8 value).length ++ utf8 value
  parse := fun input =>
    match parseHead 3 input with
    | .error e => .error e
    | .ok (n, rest) =>
        match takeBytes n rest with
        | .error e => .error e
        | .ok (bytes, rest) =>
            match fromUtf8 bytes with
            | .error e => .error e
            | .ok value => .ok (value, rest)
  parse_encode := by
    intro value rest
    rw [List.append_assoc, parse_head_encode 3 _ _ (by decide)]
    dsimp only
    rw [take_bytes_append]
    dsimp only
    rw [from_utf8_utf8]

def accountIdWire : Wire AccountId := (fixedArray 20).iso AccountId.mk AccountId.id fun _ => rfl

def variantHead (name : String) : List U8 := encodeHead 5 1 ++ Cbor.text (ascii name)

inductive PubKeyTag where
  | known
  | inline
deriving DecidableEq

def PubKeyTag.all : List PubKeyTag := [.known, .inline]

def PubKeyTag.name : PubKeyTag → String
  | .known => "Known"
  | .inline => "Inline"

def PubKeyTag.payload : PubKeyTag → Type
  | .known => AccountId
  | .inline => List U8

def PubKeyTag.wire : (tag : PubKeyTag) → Wire tag.payload
  | .known => accountIdWire
  | .inline => byteString

def pubKeyRefWire : Wire PubKeyRef :=
  (choice (fun tag => variantHead (PubKeyTag.name tag)) PubKeyTag.payload PubKeyTag.wire PubKeyTag.all
    (by intro tag; cases tag <;> decide) (by intro a b; cases a <;> cases b <;> decide)).iso
    (fun parsed =>
      match parsed with
      | ⟨.known, id⟩ => .known id
      | ⟨.inline, bytes⟩ => .inline bytes)
    (fun key =>
      match key with
      | .known id => ⟨.known, id⟩
      | .inline bytes => ⟨.inline, bytes⟩)
    (by intro key; cases key <;> rfl)

inductive CallTag where
  | transfer
  | deployContract
  | callContract
  | upgradeCrypto
  | attestRound
  | registerAttestCoordinator
  | setGovernance
  | attestPedigree
deriving DecidableEq

def CallTag.all : List CallTag :=
  [.transfer, .deployContract, .callContract, .upgradeCrypto, .attestRound, .registerAttestCoordinator, .setGovernance,
    .attestPedigree]

def CallTag.name : CallTag → String
  | .transfer => "Transfer"
  | .deployContract => "DeployContract"
  | .callContract => "CallContract"
  | .upgradeCrypto => "UpgradeCrypto"
  | .attestRound => "AttestRound"
  | .registerAttestCoordinator => "RegisterAttestCoordinator"
  | .setGovernance => "SetGovernance"
  | .attestPedigree => "AttestPedigree"

def CallTag.payload : CallTag → Type
  | .transfer => AccountId × U128
  | .deployContract => Bytes 32 × List U8
  | .callContract => AccountId × String × List U8
  | .upgradeCrypto => U64 × U8 × U8 × List U8
  | .attestRound => Bytes 32 × U64 × Bytes 32 × U32
  | .registerAttestCoordinator => Bytes 32 × List AccountId × List U8
  | .setGovernance => List U8 × List U8
  | .attestPedigree => Bytes 32 × Bytes 16 × Bytes 32 × Bytes 5 × Bytes 32

def CallTag.wire : (tag : CallTag) → Wire tag.payload
  | .transfer => ((accountIdWire.field (ascii "to")).both ((wideWord 128).field (ascii "amount"))).record 2
  | .deployContract =>
      (((fixedArray 32).field (ascii "code_ref")).both (byteString.field (ascii "init_args"))).record 2
  | .callContract =>
      ((accountIdWire.field (ascii "contract")).both
        ((stringWire.field (ascii "method")).both (byteString.field (ascii "args")))).record 3
  | .upgradeCrypto =>
      (((word 64).field (ascii "target_height")).both
        (((word 8).field (ascii "sig_algo")).both
          (((word 8).field (ascii "hash_algo")).both (byteString.field (ascii "gov_proof"))))).record 4
  | .attestRound =>
      (((fixedArray 32).field (ascii "job_id")).both
        (((word 64).field (ascii "round_id")).both
          (((fixedArray 32).field (ascii "model_hash")).both
            ((word 32).field (ascii "dp_epsilon_milli"))))).record 4
  | .registerAttestCoordinator =>
      (((fixedArray 32).field (ascii "job_id")).both
        (((array accountIdWire).field (ascii "coordinators")).both (byteString.field (ascii "gov_proof")))).record 3
  | .setGovernance => ((byteString.field (ascii "config_cbor")).both (byteString.field (ascii "gov_proof"))).record 2
  | .attestPedigree =>
      (((fixedArray 32).field (ascii "job_id")).both
        (((fixedArray 16).field (ascii "lot_id")).both
          (((fixedArray 32).field (ascii "supplier")).both
            (((fixedArray 5).field (ascii "cage_code")).both
              ((fixedArray 32).field (ascii "attestation_authority")))))).record 5

def txCallWire : Wire TxCall :=
  (choice (fun tag => variantHead (CallTag.name tag)) CallTag.payload CallTag.wire CallTag.all
    (by intro tag; cases tag <;> decide) (by intro a b; cases a <;> cases b <;> decide)).iso
    (fun parsed =>
      match parsed with
      | ⟨.transfer, toAccount, amount⟩ => .transfer toAccount amount
      | ⟨.deployContract, codeRef, initArgs⟩ => .deployContract codeRef initArgs
      | ⟨.callContract, contract, method, args⟩ => .callContract contract method args
      | ⟨.upgradeCrypto, targetHeight, sigAlgo, hashAlgo, govProof⟩ => .upgradeCrypto targetHeight sigAlgo hashAlgo govProof
      | ⟨.attestRound, jobId, roundId, modelHash, dpEpsilonMilli⟩ => .attestRound jobId roundId modelHash dpEpsilonMilli
      | ⟨.registerAttestCoordinator, jobId, coordinators, govProof⟩ => .registerAttestCoordinator jobId coordinators govProof
      | ⟨.setGovernance, configCbor, govProof⟩ => .setGovernance configCbor govProof
      | ⟨.attestPedigree, jobId, lotId, supplier, cageCode, authority⟩ =>
          .attestPedigree jobId lotId supplier cageCode authority)
    (fun call =>
      match call with
      | .transfer toAccount amount => ⟨.transfer, toAccount, amount⟩
      | .deployContract codeRef initArgs => ⟨.deployContract, codeRef, initArgs⟩
      | .callContract contract method args => ⟨.callContract, contract, method, args⟩
      | .upgradeCrypto targetHeight sigAlgo hashAlgo govProof => ⟨.upgradeCrypto, targetHeight, sigAlgo, hashAlgo, govProof⟩
      | .attestRound jobId roundId modelHash dpEpsilonMilli => ⟨.attestRound, jobId, roundId, modelHash, dpEpsilonMilli⟩
      | .registerAttestCoordinator jobId coordinators govProof => ⟨.registerAttestCoordinator, jobId, coordinators, govProof⟩
      | .setGovernance configCbor govProof => ⟨.setGovernance, configCbor, govProof⟩
      | .attestPedigree jobId lotId supplier cageCode authority =>
          ⟨.attestPedigree, jobId, lotId, supplier, cageCode, authority⟩)
    (by intro call; cases call <;> rfl)

def txBodyWire : Wire TxBody :=
  ((((word 64).field (ascii "nonce")).both
    ((accountIdWire.field (ascii "from_account")).both
      ((txCallWire.field (ascii "call")).both
        (((word 64).field (ascii "fee_sat")).both
          (((word 32).field (ascii "gas_limit")).both ((fixedArray 32).field (ascii "witness_hash"))))))).record 6).iso
    (fun (nonce, fromAccount, call, feeSat, gasLimit, witnessHash) =>
      { nonce, fromAccount, call, feeSat, gasLimit, witnessHash })
    (fun tx => (tx.nonce, tx.fromAccount, tx.call, tx.feeSat, tx.gasLimit, tx.witnessHash)) fun _ => rfl

def witnessWire : Wire Witness :=
  ((((word 8).field (ascii "sig_algo")).both
    ((byteString.field (ascii "sig")).both (pubKeyRefWire.field (ascii "pubkey")))).record 3).iso
    (fun (sigAlgo, sig, pubkey) => { sigAlgo, sig, pubkey })
    (fun witness => (witness.sigAlgo, witness.sig, witness.pubkey)) fun _ => rfl

def blockHeaderWire : Wire BlockHeader :=
  ((((word 32).field (ascii "version")).both
    (((word 64).field (ascii "height")).both
      (((fixedArray 32).field (ascii "parent")).both
        (((word 64).field (ascii "timestamp_ms")).both
          (((word 32).field (ascii "bits")).both
            (((word 64).field (ascii "nonce")).both
              (((fixedArray 32).field (ascii "tx_root")).both
                (((fixedArray 32).field (ascii "witness_root")).both
                  (((fixedArray 32).field (ascii "state_root")).both
                    (((fixedArray 32).field (ascii "reflect_root")).both
                      (((fixedArray 32).field (ascii "coinbase")).both
                        (((word 8).field (ascii "sig_algo")).both
                          ((word 8).field (ascii "hash_algo")))))))))))))).record 13).iso
    (fun (version, height, parent, timestampMs, bits, nonce, txRoot, witnessRoot, stateRoot, reflectRoot, coinbase,
        sigAlgo, hashAlgo) =>
      { version, height, parent, timestampMs, bits, nonce, txRoot, witnessRoot, stateRoot, reflectRoot, coinbase,
        sigAlgo, hashAlgo })
    (fun header => (header.version, header.height, header.parent, header.timestampMs, header.bits, header.nonce,
      header.txRoot, header.witnessRoot, header.stateRoot, header.reflectRoot, header.coinbase, header.sigAlgo,
      header.hashAlgo)) fun _ => rfl

def blockBodyWire : Wire BlockBody :=
  ((((array txBodyWire).field (ascii "txs")).both ((array witnessWire).field (ascii "witnesses"))).record 2).iso
    (fun (txs, witnesses) => { txs, witnesses }) (fun body => (body.txs, body.witnesses)) fun _ => rfl

def blockWire : Wire Block :=
  (((blockHeaderWire.field (ascii "header")).both (blockBodyWire.field (ascii "body"))).record 2).iso
    (fun (header, body) => { header, body }) (fun block => (block.header, block.body)) fun _ => rfl

theorem account_id_at_least : accountIdWire.AtLeast 21 := fun account => fixed_array_at_least 20 account.id

theorem variant_at_least (name : String) (rest : List U8) : 2 + (ascii name).length ≤ (variantHead name ++ rest).length := by
  have opened := head_at_least 5 1
  have named := head_at_least 3 (ascii name).length
  rw [variantHead, Cbor.text, List.length_append, List.length_append, List.length_append]
  omega

theorem pub_key_ref_at_least : pubKeyRefWire.AtLeast 7 := by
  intro key
  cases key with
  | known id => exact variant_at_least "Known" _
  | inline bytes => exact Nat.le_trans (by decide) (variant_at_least "Inline" _)

theorem tx_call_at_least : txCallWire.AtLeast 10 := by
  intro call
  cases call with
  | transfer toAccount amount => exact variant_at_least "Transfer" _
  | deployContract codeRef initArgs => exact Nat.le_trans (by decide) (variant_at_least "DeployContract" _)
  | callContract contract method args => exact Nat.le_trans (by decide) (variant_at_least "CallContract" _)
  | upgradeCrypto targetHeight sigAlgo hashAlgo govProof =>
      exact Nat.le_trans (by decide) (variant_at_least "UpgradeCrypto" _)
  | attestRound jobId roundId modelHash dpEpsilonMilli =>
      exact Nat.le_trans (by decide) (variant_at_least "AttestRound" _)
  | registerAttestCoordinator jobId coordinators govProof =>
      exact Nat.le_trans (by decide) (variant_at_least "RegisterAttestCoordinator" _)
  | setGovernance configCbor govProof => exact Nat.le_trans (by decide) (variant_at_least "SetGovernance" _)
  | attestPedigree jobId lotId supplier cageCode authority =>
      exact Nat.le_trans (by decide) (variant_at_least "AttestPedigree" _)

theorem length_tx_body (tx : TxBody) :
    (txBodyWire.encode tx).length =
      56 + ((word 64).encode tx.nonce).length + (accountIdWire.encode tx.fromAccount).length +
        (txCallWire.encode tx.call).length + ((word 64).encode tx.feeSat).length + ((word 32).encode tx.gasLimit).length +
        ((fixedArray 32).encode tx.witnessHash).length := by
  have names : (encodeHead 5 6).length + ([ascii "nonce", ascii "from_account", ascii "call", ascii "fee_sat",
      ascii "gas_limit", ascii "witness_hash"].map fun name => (Cbor.text name).length).sum = 56 := by decide
  simp only [txBodyWire, Wire.iso, Wire.mapped, Wire.record, Wire.field, Wire.after, Wire.both, List.length_append]
  simp only [List.map_cons, List.map_nil, List.sum_cons, List.sum_nil] at names
  omega

theorem tx_body_at_least : txBodyWire.AtLeast 123 := by
  intro tx
  have nonce := word_at_least 64 tx.nonce
  have sender := account_id_at_least tx.fromAccount
  have call := tx_call_at_least tx.call
  have fee := word_at_least 64 tx.feeSat
  have gas := word_at_least 32 tx.gasLimit
  have hash := fixed_array_at_least 32 tx.witnessHash
  rw [length_tx_body]
  omega

theorem length_witness (witness : Witness) :
    (witnessWire.encode witness).length =
      21 + ((word 8).encode witness.sigAlgo).length + (byteString.encode witness.sig).length +
        (pubKeyRefWire.encode witness.pubkey).length := by
  have names : (encodeHead 5 3).length + ([ascii "sig_algo", ascii "sig", ascii "pubkey"].map fun name =>
      (Cbor.text name).length).sum = 21 := by decide
  simp only [witnessWire, Wire.iso, Wire.mapped, Wire.record, Wire.field, Wire.after, Wire.both, List.length_append]
  simp only [List.map_cons, List.map_nil, List.sum_cons, List.sum_nil] at names
  omega

theorem witness_at_least : witnessWire.AtLeast 30 := by
  intro witness
  have algo := word_at_least 8 witness.sigAlgo
  have sig := byte_string_at_least witness.sig
  have key := pub_key_ref_at_least witness.pubkey
  rw [length_witness]
  omega

theorem header_at_most : blockHeaderWire.AtMost 640 := by
  have root := fun name => after_at_most (fixedArray 32) (text (ascii name)) _ (fixed_array_at_most 32)
  have narrow := fun name => after_at_most (word 8) (text (ascii name)) _ (word_at_most 8 (by decide))
  have short := fun name => after_at_most (word 32) (text (ascii name)) _ (word_at_most 32 (by decide))
  have long := fun name => after_at_most (word 64) (text (ascii name)) _ (word_at_most 64 (by decide))
  have fields := after_at_most _ (encodeHead 5 13) _ <| both_at_most _ _ _ _ (short "version") <|
    both_at_most _ _ _ _ (long "height") <| both_at_most _ _ _ _ (root "parent") <|
    both_at_most _ _ _ _ (long "timestamp_ms") <| both_at_most _ _ _ _ (short "bits") <|
    both_at_most _ _ _ _ (long "nonce") <| both_at_most _ _ _ _ (root "tx_root") <|
    both_at_most _ _ _ _ (root "witness_root") <| both_at_most _ _ _ _ (root "state_root") <|
    both_at_most _ _ _ _ (root "reflect_root") <| both_at_most _ _ _ _ (root "coinbase") <|
    both_at_most _ _ _ _ (narrow "sig_algo") (narrow "hash_algo")
  exact fun header => Nat.le_trans (fields _) (by decide)

theorem empty_block_at_most (header : BlockHeader) : (blockWire.encode ⟨header, ⟨[], []⟩⟩).length ≤ 680 := by
  show (encodeHead 5 2 ++ ((blockHeaderWire.field (ascii "header")).encode header ++
    (text (ascii "body") ++ blockBodyWire.encode ⟨[], []⟩))).length ≤ 680
  rw [List.length_append, List.length_append, List.length_append]
  have first : (encodeHead 5 2).length = 1 := by decide
  have second : (text (ascii "body")).length = 5 := by decide
  have empty : (blockBodyWire.encode ⟨[], []⟩).length = 17 := by decide
  have headed : ((blockHeaderWire.field (ascii "header")).encode header).length ≤ 7 + 640 :=
    after_at_most blockHeaderWire (text (ascii "header")) 640 header_at_most header
  omega

end PyGrove.Core
