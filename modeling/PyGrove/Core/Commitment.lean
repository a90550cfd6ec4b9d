import Mathlib.Data.List.Forall2
import PyGrove.Core.Tx

set_option autoImplicit false

/- What the roots of a header say about the body: the preimages that are hashed
   are read back field by field. -/
namespace PyGrove.Core

open Words

-- Two calls with the same hash_call encoding. A governance proof is not
-- encoded, coordinators are encoded as a sorted list, and the two lengths of a
-- contract call are cast to u32, so its fields are not read back.
inductive SameCommitted : TxCall → TxCall → Prop where
  | transfer (toAccount : AccountId) (amount : U128) :
      SameCommitted (.transfer toAccount amount) (.transfer toAccount amount)
  | deployContract (codeRef : Bytes 32) (initArgs : List U8) :
      SameCommitted (.deployContract codeRef initArgs) (.deployContract codeRef initArgs)
  | callContract (contract contract' : AccountId) (method method' : String) (args args' : List U8) :
      SameCommitted (.callContract contract method args) (.callContract contract' method' args')
  | upgradeCrypto (targetHeight : U64) (sigAlgo hashAlgo : U8) (govProof govProof' : List U8) :
      SameCommitted (.upgradeCrypto targetHeight sigAlgo hashAlgo govProof)
        (.upgradeCrypto targetHeight sigAlgo hashAlgo govProof')
  | attestRound (jobId : Bytes 32) (roundId : U64) (modelHash : Bytes 32) (dpEpsilonMilli : U32) :
      SameCommitted (.attestRound jobId roundId modelHash dpEpsilonMilli)
        (.attestRound jobId roundId modelHash dpEpsilonMilli)
  | registerAttestCoordinator (jobId : Bytes 32) (coordinators coordinators' : List AccountId)
      (govProof govProof' : List U8) (perm : coordinators.Perm coordinators')
      (sorted : sortIds coordinators = sortIds coordinators') :
      SameCommitted (.registerAttestCoordinator jobId coordinators govProof)
        (.registerAttestCoordinator jobId coordinators' govProof')
  | setGovernance (configCbor govProof govProof' : List U8) :
      SameCommitted (.setGovernance configCbor govProof) (.setGovernance configCbor govProof')
  | attestPedigree (jobId : Bytes 32) (lotId : Bytes 16) (supplier : Bytes 32) (cageCode : Bytes 5)
      (attestationAuthority : Bytes 32) :
      SameCommitted (.attestPedigree jobId lotId supplier cageCode attestationAuthority)
        (.attestPedigree jobId lotId supplier cageCode attestationAuthority)

def callTag : TxCall → U8
  | .transfer .. => 0
  | .deployContract .. => 1
  | .callContract .. => 2
  | .upgradeCrypto .. => 3
  | .attestRound .. => 4
  | .registerAttestCoordinator .. => 5
  | .attestPedigree .. => 6
  | .setGovernance .. => 7

theorem hash_call_head (call : TxCall) : (hashCall call).head? = some (callTag call) := by
  cases call <;> rfl

theorem coordinators_read_back (a b : List AccountId)
    (same : (sortIds a).flatMap (fun id => id.id.toList) = (sortIds b).flatMap (fun id => id.id.toList)) :
    a.Perm b ∧ sortIds a = sortIds b := by
  have blocks : ∀ ids : List AccountId,
      ids.flatMap (fun id => id.id.toList) = (ids.map AccountId.id).flatMap List.Vector.toList := by
    intro ids
    rw [List.flatMap_map]
  rw [blocks, blocks] at same
  have lengths := congrArg List.length same
  rw [length_flat_map_bytes, length_flat_map_bytes] at lengths
  have ids := flat_map_bytes_inj _ _ (by omega) same
  have sorted : sortIds a = sortIds b := List.map_injective_iff.mpr (fun x y key => congrArg AccountId.mk key) ids
  have permA : (sortIds a).Perm a := List.perm_insertionSort _ a
  have permB : (sortIds b).Perm b := List.perm_insertionSort _ b
  exact ⟨permA.symm.trans (sorted ▸ permB), sorted⟩

theorem same_committed_of_hash_call (a b : TxCall) (same : hashCall a = hashCall b) : SameCommitted a b := by
  have tags : callTag a = callTag b := by
    apply Option.some.inj
    rw [← hash_call_head, ← hash_call_head, same]
  cases a with
  | transfer toAccount amount =>
      cases b with
      | transfer toAccount' amount' =>
          simp only [hashCall, List.cons_append] at same
          obtain ⟨account, value⟩ := List.append_inj (List.cons.inj same).2 (by simp)
          rw [account_key_inj _ _ account, le_bytes_word_inj amount amount' (by decide) value]
          exact .transfer toAccount' amount'
      | _ => simp [callTag] at tags
  | deployContract codeRef initArgs =>
      cases b with
      | deployContract codeRef' initArgs' =>
          simp only [hashCall, List.cons_append, List.append_assoc] at same
          obtain ⟨code, rest⟩ := List.append_inj (List.cons.inj same).2 (by simp)
          obtain ⟨_, args⟩ := List.append_inj rest (by simp)
          rw [List.Vector.eq _ _ code, args]
          exact .deployContract codeRef' initArgs'
      | _ => simp [callTag] at tags
  | callContract contract method args =>
      cases b with
      | callContract contract' method' args' => exact .callContract ..
      | _ => simp [callTag] at tags
  | upgradeCrypto targetHeight sigAlgo hashAlgo govProof =>
      cases b with
      | upgradeCrypto targetHeight' sigAlgo' hashAlgo' govProof' =>
          simp only [hashCall, List.cons_append] at same
          obtain ⟨height, algos⟩ := List.append_inj (List.cons.inj same).2 (by simp)
          obtain ⟨sig, hash⟩ := List.cons.inj algos
          rw [le_bytes_word_inj targetHeight targetHeight' (by decide) height, sig, (List.cons.inj hash).1]
          exact .upgradeCrypto ..
      | _ => simp [callTag] at tags
  | attestRound jobId roundId modelHash dpEpsilonMilli =>
      cases b with
      | attestRound jobId' roundId' modelHash' dpEpsilonMilli' =>
          simp only [hashCall, List.cons_append, List.append_assoc] at same
          obtain ⟨job, rest⟩ := List.append_inj (List.cons.inj same).2 (by simp)
          obtain ⟨round, rest⟩ := List.append_inj rest (by simp)
          obtain ⟨model, epsilon⟩ := List.append_inj rest (by simp)
          rw [List.Vector.eq _ _ job, le_bytes_word_inj roundId roundId' (by decide) round, List.Vector.eq _ _ model,
            le_bytes_word_inj dpEpsilonMilli dpEpsilonMilli' (by decide) epsilon]
          exact .attestRound ..
      | _ => simp [callTag] at tags
  | registerAttestCoordinator jobId coordinators govProof =>
      cases b with
      | registerAttestCoordinator jobId' coordinators' govProof' =>
          simp only [hashCall, List.cons_append, List.append_assoc] at same
          obtain ⟨job, rest⟩ := List.append_inj (List.cons.inj same).2 (by simp)
          obtain ⟨_, ids⟩ := List.append_inj rest (by simp)
          obtain ⟨perm, sorted⟩ := coordinators_read_back coordinators coordinators' ids
          rw [List.Vector.eq _ _ job]
          exact .registerAttestCoordinator jobId' coordinators coordinators' govProof govProof' perm sorted
      | _ => simp [callTag] at tags
  | setGovernance configCbor govProof =>
      cases b with
      | setGovernance configCbor' govProof' =>
          simp only [hashCall, List.cons_append] at same
          obtain ⟨_, config⟩ := List.append_inj (List.cons.inj same).2 (by simp)
          rw [config]
          exact .setGovernance ..
      | _ => simp [callTag] at tags
  | attestPedigree jobId lotId supplier cageCode attestationAuthority =>
      cases b with
      | attestPedigree jobId' lotId' supplier' cageCode' attestationAuthority' =>
          simp only [hashCall, List.cons_append, List.append_assoc] at same
          obtain ⟨job, rest⟩ := List.append_inj (List.cons.inj same).2 (by simp)
          obtain ⟨lot, rest⟩ := List.append_inj rest (by simp)
          obtain ⟨supply, rest⟩ := List.append_inj rest (by simp)
          obtain ⟨cage, authority⟩ := List.append_inj rest (by simp)
          rw [List.Vector.eq _ _ job, List.Vector.eq _ _ lot, List.Vector.eq _ _ supply, List.Vector.eq _ _ cage,
            List.Vector.eq _ _ authority]
          exact .attestPedigree ..
      | _ => simp [callTag] at tags

def SameTx (a b : TxBody) : Prop := b = { a with call := b.call } ∧ hashCall a.call = hashCall b.call

theorem body_preimage_read_back (a b : TxBody) (same : a.bodyPreimage = b.bodyPreimage) : SameTx a b := by
  simp only [TxBody.bodyPreimage] at same
  obtain ⟨same, witness⟩ := List.append_inj' same (by simp)
  obtain ⟨same, gas⟩ := List.append_inj' same (by simp)
  obtain ⟨same, fee⟩ := List.append_inj' same (by simp)
  obtain ⟨same, call⟩ := List.append_inj same (by simp)
  obtain ⟨same, account⟩ := List.append_inj' same (by simp)
  obtain ⟨_, nonce⟩ := List.append_inj' same (by simp)
  have nonceEq := le_bytes_word_inj a.nonce b.nonce (by decide) nonce
  have accountEq := account_key_inj _ _ account
  have feeEq := le_bytes_word_inj a.feeSat b.feeSat (by decide) fee
  have gasEq := le_bytes_word_inj a.gasLimit b.gasLimit (by decide) gas
  have witnessEq := List.Vector.eq _ _ witness
  refine ⟨?_, call⟩
  cases a
  cases b
  simp only at nonceEq accountEq feeEq gasEq witnessEq
  rw [nonceEq, accountEq, feeEq, gasEq, witnessEq]

theorem signing_preimage_same (a b : TxBody) (same : SameTx a b) : a.signingPreimage = b.signingPreimage := by
  obtain ⟨fields, call⟩ := same
  rw [fields, TxBody.signingPreimage, TxBody.signingPreimage, call]

theorem witness_preimage_read_back (a b : Witness) (shortA : a.sig.length < 2 ^ 32) (shortB : b.sig.length < 2 ^ 32)
    (same : a.preimage = b.preimage) : a = b := by
  simp only [Witness.preimage] at same
  simp only [List.append_assoc] at same
  obtain ⟨_, rest⟩ := List.append_inj same (by simp)
  obtain ⟨algo, rest⟩ := List.append_inj rest (by simp)
  obtain ⟨length, rest⟩ := List.append_inj rest (by simp)
  have lengthEq := le_bytes_inj 4 _ _ (by omega) (by omega) length
  obtain ⟨sig, key⟩ := List.append_inj rest lengthEq
  have pubkey : a.pubkey = b.pubkey := by
    split at key
    · rename_i known knownEq
      split at key
      · rename_i known' knownEq'
        rw [knownEq, knownEq', account_key_inj _ _ (List.cons.inj key).2]
      · exact absurd (List.cons.inj key).1 (by decide)
    · rename_i bytes bytesEq
      split at key
      · exact absurd (List.cons.inj key).1 (by decide)
      · rename_i bytes' bytesEq'
        simp only [List.cons_append] at key
        obtain ⟨_, tail⟩ := List.append_inj (List.cons.inj key).2 (by simp)
        rw [bytesEq, bytesEq', tail]
  cases a
  cases b
  cases List.cons.inj algo |>.1
  cases sig
  cases pubkey
  rfl

theorem vec_root_preimage_read_back (domain : List U8) (a b : List (Bytes 32))
    (same : vecRootPreimage domain a = vecRootPreimage domain b) : a = b := by
  simp only [vecRootPreimage] at same
  simp only [List.append_assoc] at same
  obtain ⟨_, leaves⟩ := List.append_inj (List.append_cancel_left same) (by simp)
  have lengths := congrArg List.length leaves
  rw [length_flat_map_bytes, length_flat_map_bytes] at lengths
  exact flat_map_bytes_inj a b (by omega) leaves

theorem map_inj_on {α β : Type} (f : α → β) (domain : Set α) (injective : Set.InjOn f domain) (a b : List α)
    (insideA : ∀ x ∈ a, x ∈ domain) (insideB : ∀ x ∈ b, x ∈ domain) (same : a.map f = b.map f) : a = b := by
  induction a generalizing b with
  | nil => exact (List.map_eq_nil_iff.mp same.symm).symm
  | cons x xs ih =>
      cases b with
      | nil => cases same
      | cons y ys =>
          obtain ⟨head, tail⟩ := List.cons.inj same
          rw [injective (insideA x (by simp)) (insideB y (by simp)) head,
            ih ys (fun z member => insideA z (by simp [member])) (fun z member => insideB z (by simp [member])) tail]

section
variable [HashFns]

def BlockBody.preimages (body : BlockBody) : List (List U8) :=
  vecRootPreimage (ascii "PGtxroot\x00") (body.txs.map TxBody.bodyHash) ::
    vecRootPreimage (ascii "PGwitroot\x00") (body.witnesses.map Witness.hash) ::
    (body.txs.map TxBody.bodyPreimage ++ body.witnesses.map Witness.preimage)

def CollisionFree (inputs : List (List U8)) : Prop :=
  ∀ x ∈ inputs, ∀ y ∈ inputs, HashFns.blake3 x = HashFns.blake3 y → x = y

instance (inputs : List (List U8)) : Decidable (CollisionFree inputs) :=
  inferInstanceAs (Decidable (∀ x ∈ inputs, ∀ y ∈ inputs, HashFns.blake3 x = HashFns.blake3 y → x = y))

def BlockBody.ShortSigs (body : BlockBody) : Prop := ∀ witness ∈ body.witnesses, witness.sig.length < 2 ^ 32

theorem leaves_of_root {α : Type} (domain : List U8) (inputs : List (List U8)) (hash : α → Bytes 32) (preimage : α → List U8)
    (hashed : ∀ item, hash item = HashFns.blake3 (preimage item)) (a b : List α) (collisionFree : CollisionFree inputs)
    (rootA : vecRootPreimage domain (a.map hash) ∈ inputs) (rootB : vecRootPreimage domain (b.map hash) ∈ inputs)
    (insideA : ∀ bytes ∈ a.map preimage, bytes ∈ inputs) (insideB : ∀ bytes ∈ b.map preimage, bytes ∈ inputs)
    (same : vecRoot domain (a.map hash) = vecRoot domain (b.map hash)) : a.map preimage = b.map preimage := by
  have leaves := vec_root_preimage_read_back _ _ _ (collisionFree _ rootA _ rootB same)
  have composed : ∀ items : List α, items.map hash = (items.map preimage).map HashFns.blake3 := by
    intro items
    rw [List.map_map]
    exact List.map_congr_left fun item _ => hashed item
  rw [composed, composed] at leaves
  exact map_inj_on HashFns.blake3 {bytes | bytes ∈ inputs} (fun x insideX y insideY => collisionFree x insideX y insideY) _ _
    insideA insideB leaves

theorem txs_of_tx_root (a b : BlockBody) (collisionFree : CollisionFree (a.preimages ++ b.preimages))
    (same : a.txRoot = b.txRoot) : List.Forall₂ SameTx a.txs b.txs := by
  have preimages := leaves_of_root (ascii "PGtxroot\x00") _ TxBody.bodyHash TxBody.bodyPreimage (fun _ => rfl) a.txs b.txs
    collisionFree (by simp [BlockBody.preimages]) (by simp [BlockBody.preimages])
    (fun x member => by simp [BlockBody.preimages, List.mem_map.mp member])
    (fun x member => by simp [BlockBody.preimages, List.mem_map.mp member]) same
  have equal : List.Forall₂ Eq (a.txs.map TxBody.bodyPreimage) (b.txs.map TxBody.bodyPreimage) := by
    rw [preimages]
    exact List.forall₂_same.mpr fun _ _ => rfl
  have paired := List.forall₂_map_left_iff.mp (List.forall₂_map_right_iff.mp equal)
  exact paired.imp fun x y => body_preimage_read_back x y

theorem witnesses_of_witness_root (a b : BlockBody)
    (collisionFree : CollisionFree (a.preimages ++ b.preimages)) (shortA : a.ShortSigs) (shortB : b.ShortSigs)
    (same : a.witnessRoot = b.witnessRoot) : a.witnesses = b.witnesses := by
  have preimages := leaves_of_root (ascii "PGwitroot\x00") _ Witness.hash Witness.preimage (fun _ => rfl) a.witnesses b.witnesses
    collisionFree (by simp [BlockBody.preimages]) (by simp [BlockBody.preimages])
    (fun x member => by simp [BlockBody.preimages, List.mem_map.mp member])
    (fun x member => by simp [BlockBody.preimages, List.mem_map.mp member]) same
  exact map_inj_on Witness.preimage {witness | witness.sig.length < 2 ^ 32}
    (fun x shortX y shortY => witness_preimage_read_back x y shortX shortY) _ _ shortA shortB preimages

end

end PyGrove.Core
