import Mathlib.Data.List.Sort
import PyGrove.Core.Cbor
import PyGrove.Core.Commitment
import PyGrove.Finality.Certificate
import PyGrove.State.Governance

set_option autoImplicit false

/- Everything that the keys of the chain sign, as the bytes that are hashed: what
   these bytes say, and that no message can be taken for another. -/
namespace PyGrove.Finality

open Words PyGrove.Core PyGrove.State

inductive SignedMessage where
  | txBody (tx : TxBody)
  | upgradeCrypto (targetHeight : U64) (sigAlgo hashAlgo : U8)
  | registerAttest (jobId : Bytes 32) (coordinators : List AccountId)
  | setGovernance (newConfig : GovernanceConfig)
  | finalizationVote (vote : FinalizationVote)
  | aggregatedCert (cert : AggregatedFinalizationCert)

inductive Purpose where
  | txSign
  | govUpgrade
  | govRegattest
  | govSetgov
  | final
  | finalAgg
deriving DecidableEq

def Purpose.domain : Purpose → List U8
  | .txSign => ascii "PGtxsign\x00"
  | .govUpgrade => ascii "PGgov:upgrade\x00"
  | .govRegattest => ascii "PGgov:regattest\x00"
  | .govSetgov => ascii "PGgov:setgov\x00"
  | .final => ascii "PGfinal\x00"
  | .finalAgg => ascii "PGfinalagg\x00"

-- The zero byte at the end is what keeps PGfinal from starting PGfinalagg.
theorem domains_free (a b : Purpose) (starts : a.domain <+: b.domain) : a = b := by
  cases a <;> cases b <;> first | rfl | exact absurd starts (by decide)

def signedCall : TxCall → TxCall
  | .upgradeCrypto targetHeight sigAlgo hashAlgo _ => .upgradeCrypto targetHeight sigAlgo hashAlgo []
  | .registerAttestCoordinator jobId coordinators _ => .registerAttestCoordinator jobId (sortIds coordinators) []
  | .setGovernance configCbor _ => .setGovernance configCbor []
  | call => call

-- The method is the one field of variable size with another behind it. Its length
-- is cast to u32, and is read back when the cast keeps it.
def MethodFits : TxCall → Prop
  | .callContract _ method _ => (utf8 method).length < 2 ^ 32
  | _ => True

theorem sort_ids_sorted (ids : List AccountId) : (sortIds ids).Pairwise fun a b => a.id.toList ≤ b.id.toList := by
  have total : Std.Total fun a b : AccountId => a.id.toList ≤ b.id.toList := ⟨fun a b => List.le_total _ _⟩
  have trans : IsTrans AccountId fun a b => a.id.toList ≤ b.id.toList := ⟨fun a b c => List.le_trans⟩
  exact List.pairwise_insertionSort _ ids

theorem sort_ids_idem (ids : List AccountId) : sortIds (sortIds ids) = sortIds ids :=
  List.Pairwise.insertionSort_eq (sort_ids_sorted ids)

theorem sort_ids_eq_iff (a b : List AccountId) : sortIds a = sortIds b ↔ a.Perm b := by
  have permA : (sortIds a).Perm a := List.perm_insertionSort _ a
  have permB : (sortIds b).Perm b := List.perm_insertionSort _ b
  constructor
  · intro same
    exact permA.symm.trans (same ▸ permB)
  · intro perm
    refine List.Perm.eq_of_pairwise ?_ (sort_ids_sorted a) (sort_ids_sorted b) (permA.trans (perm.trans permB.symm))
    intro x y _ _ le ge
    exact account_key_inj x y (List.le_antisymm le ge)

theorem hash_call_signed (call : TxCall) : hashCall (signedCall call) = hashCall call := by
  cases call with
  | registerAttestCoordinator jobId coordinators govProof =>
      have length : (sortIds coordinators).length = coordinators.length := List.length_insertionSort ..
      rw [signedCall, hashCall, hashCall, sort_ids_idem, length]
  | _ => rfl

theorem hash_call_read_back (a b : TxCall) (fitsA : MethodFits a) (fitsB : MethodFits b) (same : hashCall a = hashCall b) :
    signedCall a = signedCall b := by
  cases same_committed_of_hash_call a b same with
  | callContract contract contract' method method' args args' =>
      simp only [hashCall, List.cons_append, List.append_assoc] at same
      obtain ⟨account, rest⟩ := List.append_inj (List.cons.inj same).2 (by simp)
      obtain ⟨length, rest⟩ := List.append_inj rest (by simp)
      have lengths := le_bytes_inj 4 _ _ fitsA fitsB length
      obtain ⟨text, rest⟩ := List.append_inj rest lengths
      obtain ⟨_, tail⟩ := List.append_inj rest (by simp)
      rw [account_key_inj _ _ account, utf8_inj _ _ text, tail]
  | registerAttestCoordinator jobId coordinators coordinators' govProof govProof' perm sorted =>
      rw [signedCall, signedCall, sorted]
  | _ => rfl

namespace SignedMessage

section
variable [StateCbor]

def preimage : SignedMessage → List U8
  | .txBody tx => tx.signingPreimage
  | .upgradeCrypto targetHeight sigAlgo hashAlgo =>
      ascii "PGgov:upgrade\x00" ++ leBytes 8 targetHeight.toNat ++ [sigAlgo, hashAlgo]
  | .registerAttest jobId coordinators =>
      ascii "PGgov:regattest\x00" ++ jobId.toList ++ leBytes 4 coordinators.length ++
        (sortIds coordinators).flatMap fun a => a.id.toList
  | .setGovernance newConfig =>
      let buf := StateCbor.governanceConfig.encode newConfig
      ascii "PGgov:setgov\x00" ++ leBytes 4 buf.length ++ buf
  | .finalizationVote vote => vote.signingPreimage
  | .aggregatedCert cert =>
      ascii "PGfinalagg\x00" ++ leBytes 8 cert.committeeEpoch.toNat ++ leBytes 8 cert.round.toNat ++
        leBytes 8 cert.blockHeight.toNat ++ cert.blockHash.toList

def digest [HashFns] : SignedMessage → Bytes 32
  | .txBody tx => tx.signingHash
  | .upgradeCrypto targetHeight sigAlgo hashAlgo => upgradeCryptoGovPayload targetHeight sigAlgo hashAlgo
  | .registerAttest jobId coordinators => registerAttestGovPayload jobId coordinators
  | .setGovernance newConfig => setGovernanceGovPayload newConfig
  | .finalizationVote vote => vote.signingHash
  | .aggregatedCert cert => cert.signingPayload

theorem digest_preimage [HashFns] (message : SignedMessage) : message.digest = HashFns.blake3 message.preimage := by
  cases message <;> rfl

def purpose : SignedMessage → Purpose
  | .txBody _ => .txSign
  | .upgradeCrypto .. => .govUpgrade
  | .registerAttest .. => .govRegattest
  | .setGovernance _ => .govSetgov
  | .finalizationVote _ => .final
  | .aggregatedCert _ => .finalAgg

def payload : SignedMessage → List U8
  | .txBody tx => leBytes 8 tx.nonce.toNat ++ (tx.fromAccount.id.toList ++ (hashCall tx.call ++ leBytes 8 tx.feeSat.toNat))
  | .upgradeCrypto targetHeight sigAlgo hashAlgo => leBytes 8 targetHeight.toNat ++ [sigAlgo, hashAlgo]
  | .registerAttest jobId coordinators =>
      jobId.toList ++ (leBytes 4 coordinators.length ++ (sortIds coordinators).flatMap fun a => a.id.toList)
  | .setGovernance newConfig =>
      leBytes 4 (StateCbor.governanceConfig.encode newConfig).length ++ StateCbor.governanceConfig.encode newConfig
  | .finalizationVote vote =>
      leBytes 8 vote.committeeEpoch.toNat ++ (leBytes 8 vote.round.toNat ++ (leBytes 8 vote.blockHeight.toNat ++
        (vote.blockHash.toList ++ vote.validatorId.toList)))
  | .aggregatedCert cert =>
      leBytes 8 cert.committeeEpoch.toNat ++ (leBytes 8 cert.round.toNat ++ (leBytes 8 cert.blockHeight.toNat ++
        cert.blockHash.toList))

theorem preimage_split (message : SignedMessage) : message.preimage = message.purpose.domain ++ message.payload := by
  cases message <;> simp only [preimage, purpose, payload, Purpose.domain, TxBody.signingPreimage,
    FinalizationVote.signingPreimage, List.append_assoc]

end

def signedPart : SignedMessage → SignedMessage
  | .txBody tx => .txBody { tx with call := signedCall tx.call, gasLimit := 0, witnessHash := .replicate 32 0 }
  | .upgradeCrypto targetHeight sigAlgo hashAlgo => .upgradeCrypto targetHeight sigAlgo hashAlgo
  | .registerAttest jobId coordinators => .registerAttest jobId (sortIds coordinators)
  | .setGovernance newConfig => .setGovernance newConfig
  | .finalizationVote vote => .finalizationVote { vote with sigAlgo := 0, sig := [] }
  | .aggregatedCert cert => .aggregatedCert { cert with signerBitmap := [], aggSigAlgo := 0, aggSig := [] }

def Fits : SignedMessage → Prop
  | .txBody tx => MethodFits tx.call
  | _ => True

section
variable [StateCbor]

theorem signed_part_preimage (message : SignedMessage) : message.signedPart.preimage = message.preimage := by
  cases message with
  | txBody tx =>
      simp only [signedPart, preimage, TxBody.signingPreimage]
      rw [hash_call_signed]
  | registerAttest jobId coordinators =>
      have length : (sortIds coordinators).length = coordinators.length := List.length_insertionSort ..
      rw [signedPart, preimage, preimage, sort_ids_idem, length]
  | _ => rfl

theorem tx_read_back (a b : TxBody) (fitsA : MethodFits a.call) (fitsB : MethodFits b.call)
    (same : payload (.txBody a) = payload (.txBody b)) : signedPart (.txBody a) = signedPart (.txBody b) := by
  simp only [payload] at same
  obtain ⟨nonce, rest⟩ := List.append_inj same (by simp)
  obtain ⟨account, rest⟩ := List.append_inj rest (by simp)
  obtain ⟨call, fee⟩ := List.append_inj' rest (by simp)
  have calls := hash_call_read_back a.call b.call fitsA fitsB call
  simp only [signedPart, le_bytes_word_inj a.nonce b.nonce (by decide) nonce, account_key_inj _ _ account, calls,
    le_bytes_word_inj a.feeSat b.feeSat (by decide) fee]

theorem upgrade_read_back (height height' : U64) (sigAlgo sigAlgo' hashAlgo hashAlgo' : U8)
    (same : payload (.upgradeCrypto height sigAlgo hashAlgo) = payload (.upgradeCrypto height' sigAlgo' hashAlgo')) :
    SignedMessage.upgradeCrypto height sigAlgo hashAlgo = .upgradeCrypto height' sigAlgo' hashAlgo' := by
  simp only [payload] at same
  obtain ⟨heights, algos⟩ := List.append_inj same (by simp)
  obtain ⟨sig, hash⟩ := List.cons.inj algos
  rw [le_bytes_word_inj height height' (by decide) heights, sig, (List.cons.inj hash).1]

theorem register_read_back (jobId jobId' : Bytes 32) (coordinators coordinators' : List AccountId)
    (same : payload (.registerAttest jobId coordinators) = payload (.registerAttest jobId' coordinators')) :
    signedPart (.registerAttest jobId coordinators) = signedPart (.registerAttest jobId' coordinators') := by
  simp only [payload] at same
  obtain ⟨job, rest⟩ := List.append_inj same (by simp)
  obtain ⟨_, ids⟩ := List.append_inj rest (by simp)
  obtain ⟨_, sorted⟩ := coordinators_read_back coordinators coordinators' ids
  rw [signedPart, signedPart, List.Vector.eq _ _ job, sorted]

theorem governance_read_back (newConfig newConfig' : GovernanceConfig)
    (same : payload (.setGovernance newConfig) = payload (.setGovernance newConfig')) : newConfig = newConfig' := by
  simp only [payload] at same
  obtain ⟨_, config⟩ := List.append_inj same (by simp)
  exact StateCbor.governanceConfig.encode_injective _ _ config

omit [StateCbor] in
theorem round_read_back (epoch epoch' round round' height height' : U64) (rest rest' : List U8)
    (same : leBytes 8 epoch.toNat ++ (leBytes 8 round.toNat ++ (leBytes 8 height.toNat ++ rest)) =
      leBytes 8 epoch'.toNat ++ (leBytes 8 round'.toNat ++ (leBytes 8 height'.toNat ++ rest'))) :
    epoch = epoch' ∧ round = round' ∧ height = height' ∧ rest = rest' := by
  obtain ⟨epochs, tail⟩ := List.append_inj same (by simp)
  obtain ⟨rounds, tail⟩ := List.append_inj tail (by simp)
  obtain ⟨heights, tail⟩ := List.append_inj tail (by simp)
  exact ⟨le_bytes_word_inj epoch epoch' (by decide) epochs, le_bytes_word_inj round round' (by decide) rounds,
    le_bytes_word_inj height height' (by decide) heights, tail⟩

theorem vote_read_back (a b : FinalizationVote) (same : payload (.finalizationVote a) = payload (.finalizationVote b)) :
    signedPart (.finalizationVote a) = signedPart (.finalizationVote b) := by
  obtain ⟨epoch, round, height, rest⟩ := round_read_back _ _ _ _ _ _ _ _ same
  obtain ⟨hash, validator⟩ := List.append_inj rest (by simp)
  simp only [signedPart, epoch, round, height, List.Vector.eq _ _ hash, List.Vector.eq _ _ validator]

theorem cert_read_back (a b : AggregatedFinalizationCert)
    (same : payload (.aggregatedCert a) = payload (.aggregatedCert b)) :
    signedPart (.aggregatedCert a) = signedPart (.aggregatedCert b) := by
  obtain ⟨epoch, round, height, hash⟩ := round_read_back _ _ _ _ _ _ _ _ same
  simp only [signedPart, epoch, round, height, List.Vector.eq _ _ hash]

theorem payload_read_back (a b : SignedMessage) (fitsA : a.Fits) (fitsB : b.Fits) (purpose : a.purpose = b.purpose)
    (same : a.payload = b.payload) : a.signedPart = b.signedPart := by
  cases a with
  | txBody tx =>
      cases b with
      | txBody tx' => exact tx_read_back tx tx' fitsA fitsB same
      | _ => cases purpose
  | upgradeCrypto height sigAlgo hashAlgo =>
      cases b with
      | upgradeCrypto height' sigAlgo' hashAlgo' => exact upgrade_read_back _ _ _ _ _ _ same
      | _ => cases purpose
  | registerAttest jobId coordinators =>
      cases b with
      | registerAttest jobId' coordinators' => exact register_read_back _ _ _ _ same
      | _ => cases purpose
  | setGovernance newConfig =>
      cases b with
      | setGovernance newConfig' => rw [governance_read_back newConfig newConfig' same]
      | _ => cases purpose
  | finalizationVote vote =>
      cases b with
      | finalizationVote vote' => exact vote_read_back vote vote' same
      | _ => cases purpose
  | aggregatedCert cert =>
      cases b with
      | aggregatedCert cert' => exact cert_read_back cert cert' same
      | _ => cases purpose

theorem preimages_agree_iff (a b : SignedMessage) (fitsA : a.Fits) (fitsB : b.Fits) :
    a.preimage = b.preimage ↔ a.signedPart = b.signedPart := by
  constructor
  · intro same
    rw [preimage_split, preimage_split] at same
    obtain ⟨purpose, payload⟩ := tagged_inj Purpose.domain domains_free _ _ _ _ same
    exact payload_read_back a b fitsA fitsB purpose payload
  · intro same
    rw [← signed_part_preimage a, same, signed_part_preimage]

end

end SignedMessage

open Sample SignedMessage

def contractCall (args : List U8) (gasLimit : U32) : SignedMessage :=
  .txBody
    { nonce := 4, fromAccount := .fromPubkey (List.replicate 32 7)
      call := .callContract (.fromPubkey (List.replicate 32 8)) "mint" args
      feeSat := 1, gasLimit, witnessHash := .replicate 32 0 }

theorem contract_calls_told_apart :
    (contractCall [1] 21000).preimage = (contractCall [2] 50000).preimage ↔
      (contractCall [1] 21000).signedPart = (contractCall [2] 50000).signedPart :=
  preimages_agree_iff (contractCall [1] 21000) (contractCall [2] 50000)
    (show (utf8 "mint").length < 2 ^ 32 by decide) (show (utf8 "mint").length < 2 ^ 32 by decide)

theorem signer_bitmap_not_signed :
    ¬ ∀ a b : AggregatedFinalizationCert, a.signerBitmap.length < 2 ^ 32 → a.aggSig.length < 2 ^ 32 →
      b.signerBitmap.length < 2 ^ 32 → b.aggSig.length < 2 ^ 32 →
      (aggregatedCert a).preimage = (aggregatedCert b).preimage →
      b = { a with aggSigAlgo := b.aggSigAlgo, aggSig := b.aggSig } := by
  intro bound
  have same := bound ⟨1, 0, 8, .replicate 32 6, [1], 5, []⟩ ⟨1, 0, 8, .replicate 32 6, [3], 5, []⟩ (by decide) (by decide)
    (by decide) (by decide) rfl
  exact absurd (congrArg AggregatedFinalizationCert.signerBitmap same) (by decide)

end PyGrove.Finality
