import Mathlib.Data.List.Induction
import PyGrove.Core.Commitment
import PyGrove.State.Cbor
import PyGrove.State.ApplySteps

set_option autoImplicit false

namespace PyGrove.State

open Words Steps PyGrove.Core Crypto

section Contents
variable {σ : Type} [StateStore σ]

def SameContents (a b : σ) : Prop := ∀ sub key, StateStore.get a sub key = StateStore.get b sub key

theorem same_contents_put (a b : σ) (sub : Subtree) (key value : List U8) (same : SameContents a b) :
    SameContents (StateStore.put a sub key value) (StateStore.put b sub key value) := by
  intro sub' key'
  rw [StateStore.get_put, StateStore.get_put, same sub' key']

theorem same_contents_load {α : Type} (codec : Codec α) (a b : σ) (sub : Subtree) (key : List U8)
    (same : SameContents a b) : loadRecord codec a sub key = loadRecord codec b sub key := by
  rw [loadRecord, loadRecord, same sub key]

def writeAt (sub : Subtree) (key : List U8) : Option (Subtree × List U8 × List U8) → Option (List U8)
  | none => none
  | some (sub', key', value) => if sub' = sub ∧ key' = key then some value else none

def lastWrite (sub : Subtree) (key : List U8) (writes : List (Option (Subtree × List U8 × List U8))) :
    Option (List U8) :=
  writes.reverse.findSome? (writeAt sub key)

theorem get_writes (store : σ) (writes : List (Option (Subtree × List U8 × List U8))) (sub : Subtree) (key : List U8) :
    StateStore.get (writes.foldl writeTo store) sub key = (lastWrite sub key writes).or (StateStore.get store sub key) := by
  induction writes using List.reverseRecOn with
  | nil => rfl
  | append_singleton earlier write ih =>
      rw [List.foldl_append, List.foldl_cons, List.foldl_nil, lastWrite, List.reverse_append, List.reverse_singleton,
        List.singleton_append, List.findSome?_cons]
      cases write with
      | none => exact ih
      | some write =>
          obtain ⟨sub', key', value⟩ := write
          rw [writeTo, StateStore.get_put, writeAt]
          by_cases here : sub' = sub ∧ key' = key
          · rw [if_pos here, if_pos here]
            rfl
          · rw [if_neg here, if_neg here]
            exact ih

end Contents

section
variable {σ : Type} [StateStore σ] [StateCbor]

theorem pay_coinbase_same (header : BlockHeader) (a b a' : σ) (reward fees minted : U128) (same : SameContents a b)
    (paid : payCoinbase header a reward fees = .ok (a', minted)) :
    ∃ b', payCoinbase header b reward fees = .ok (b', minted) ∧ SameContents a' b' := by
  have account : Accounts.loadOrDefault b (.fromCoinbase header.coinbase) =
      Accounts.loadOrDefault a (.fromCoinbase header.coinbase) := by
    rw [Accounts.loadOrDefault, Accounts.load, ← same_contents_load StateCbor.account a b _ _ same]
    rfl
  unfold payCoinbase at paid ⊢
  dsimp only at paid ⊢
  rw [account]
  split at paid
  · cases paid
  · split at paid
    · cases paid
    · rename_i total sum balance credited
      cases paid
      exact ⟨_, rfl, same_contents_put _ _ _ _ _ same⟩

theorem epilogue_same (header : BlockHeader) (a b : σ) (reflection : Reflection) (same : SameContents a b) :
    SameContents (activateUpgrade header (writeReflection header a reflection))
      (activateUpgrade header (writeReflection header b reflection)) := by
  have written : SameContents (writeReflection header a reflection) (writeReflection header b reflection) :=
    same_contents_put _ _ _ _ _ (same_contents_put _ _ _ _ _ same)
  simp only [activateUpgrade]
  rw [same_contents_load StateCbor.pendingCryptoUpgrade _ _ _ _ written]
  split
  · exact written
  · split
    · exact same_contents_put _ _ _ _ _ written
    · exact written

def registered (jobId : Bytes 32) (tx : TxBody) : Option (List AccountId) :=
  match tx.call with
  | .registerAttestCoordinator job coordinators _ => if job = jobId then some coordinators else none
  | _ => none

def lastRegistered (jobId : Bytes 32) (txs : List TxBody) : Option (List AccountId) :=
  txs.reverse.findSome? (registered jobId)

def authorityBytes (header : BlockHeader) (jobId : Bytes 32) (coordinators : List AccountId) : List U8 :=
  StateCbor.coordinatorAuthority.encode
    { jobId
      coordinators := coordinators.map AccountId.id
      registeredAtHeight := header.height }

theorem authority_bytes_inj (header : BlockHeader) (jobId : Bytes 32) (a b : List AccountId)
    (same : authorityBytes header jobId a = authorityBytes header jobId b) : a = b := by
  have records := Codec.encode_injective StateCbor.coordinatorAuthority _ _ same
  exact List.map_injective_iff.mpr (fun x y key => congrArg AccountId.mk key)
    (congrArg CoordinatorAuthority.coordinators records)

def IsAuthorityKey (sub : Subtree) (key : List U8) : Prop := ∃ jobId, sub = .metadata ∧ key = attestAuthKey jobId

end

theorem call_target_same (idx : Nat) (a b : TxBody) (same : SameTx a b) : callTarget idx a = callTarget idx b := by
  obtain ⟨fields, call⟩ := same
  have committed := same_committed_of_hash_call a.call b.call call
  have sender : a.fromAccount = b.fromAccount := by rw [fields]
  simp only [callTarget]
  rw [sender]
  generalize a.call = callA at committed
  generalize b.call = callB at committed
  cases committed <;> rfl

section
variable [StateCbor]

theorem effect_write_authority (header : BlockHeader) (jobId : Bytes 32) (tx : TxBody) :
    writeAt .metadata (attestAuthKey jobId) (effectWrite header tx) =
      (registered jobId tx).map (authorityBytes header jobId) := by
  simp only [effectWrite, registered]
  cases tx.call with
  | attestRound job roundId modelHash dpEpsilonMilli => rfl
  | registerAttestCoordinator job coordinators govProof =>
      dsimp only [writeAt]
      by_cases same : job = jobId
      · rw [if_pos ⟨rfl, congrArg attestAuthKey same⟩, if_pos same, same]
        rfl
      · rw [if_neg fun both => same (attest_auth_key_inj job jobId both.2), if_neg same]
        rfl
  | attestPedigree job lotId supplier cageCode attestationAuthority => rfl
  | upgradeCrypto targetHeight sigAlgo hashAlgo govProof =>
      dsimp only [writeAt]
      rw [if_neg fun both => attest_auth_key_ne jobId upgradeCryptoKey (by decide) both.2]
      rfl
  | setGovernance configCbor govProof =>
      dsimp only
      split
      · rfl
      · dsimp only [writeAt]
        rw [if_neg fun both => attest_auth_key_ne jobId governanceKey (by decide) both.2]
        rfl
  | transfer toAccount amount => rfl
  | deployContract codeRef initArgs => rfl
  | callContract contract method args => rfl

theorem last_write_authority (header : BlockHeader) (jobId : Bytes 32) (txs : List TxBody) :
    lastWrite .metadata (attestAuthKey jobId) (txs.map (effectWrite header)) =
      (lastRegistered jobId txs).map (authorityBytes header jobId) := by
  rw [lastWrite, lastRegistered, List.map_findSome?, ← List.map_reverse, List.findSome?_map]
  congr 1
  funext tx
  exact effect_write_authority header jobId tx

theorem effect_write_elsewhere (header : BlockHeader) (sub : Subtree) (key : List U8) (a b : TxBody) (same : SameTx a b)
    (elsewhere : ¬ IsAuthorityKey sub key) :
    writeAt sub key (effectWrite header a) = writeAt sub key (effectWrite header b) := by
  obtain ⟨fields, call⟩ := same
  have committed := same_committed_of_hash_call a.call b.call call
  have sender : a.fromAccount = b.fromAccount := by rw [fields]
  simp only [effectWrite]
  rw [sender]
  generalize a.call = callA at committed
  generalize b.call = callB at committed
  cases committed with
  | registerAttestCoordinator jobId coordinators coordinators' govProof govProof' perm sorted =>
      have apart : ¬ (Subtree.metadata = sub ∧ attestAuthKey jobId = key) := fun here =>
        elsewhere ⟨jobId, here.1.symm, here.2.symm⟩
      exact (if_neg apart).trans (if_neg apart).symm
  | _ => rfl

theorem last_write_elsewhere (header : BlockHeader) (sub : Subtree) (key : List U8) (a b : List TxBody)
    (same : List.Forall₂ SameTx a b) (elsewhere : ¬ IsAuthorityKey sub key) :
    lastWrite sub key (a.map (effectWrite header)) = lastWrite sub key (b.map (effectWrite header)) := by
  have backwards := List.forall₂_reverse_iff.mpr same
  rw [lastWrite, lastWrite, ← List.map_reverse, ← List.map_reverse]
  generalize a.reverse = a' at backwards
  generalize b.reverse = b' at backwards
  induction backwards with
  | nil => rfl
  | cons head _ ih =>
      rw [List.map_cons, List.map_cons, List.findSome?_cons, List.findSome?_cons, ih,
        effect_write_elsewhere header sub key _ _ head elsewhere]

omit [StateCbor] in
theorem registered_same (jobId : Bytes 32) (a b : List TxBody) (same : List.Forall₂ SameTx a b) :
    (lastRegistered jobId a).isSome = (lastRegistered jobId b).isSome := by
  have backwards := List.forall₂_reverse_iff.mpr same
  rw [lastRegistered, lastRegistered]
  generalize a.reverse = a' at backwards
  generalize b.reverse = b' at backwards
  induction backwards with
  | nil => rfl
  | @cons x y xs ys head _ ih =>
      have here : (registered jobId x).isSome = (registered jobId y).isSome := by
        have committed := same_committed_of_hash_call x.call y.call head.2
        simp only [registered]
        generalize x.call = callX at committed
        generalize y.call = callY at committed
        cases committed with
        | registerAttestCoordinator job coordinators coordinators' govProof govProof' perm sorted =>
            dsimp only
            split <;> rfl
        | _ => rfl
      rw [List.findSome?_cons, List.findSome?_cons]
      cases foundX : registered jobId x <;> cases foundY : registered jobId y <;> rw [foundX, foundY] at here
      · exact ih
      · cases here
      · cases here
      · rfl

end

section
variable {σ : Type} [StateStore σ] [StateCbor] [HashFns] [SigFns]

theorem effects_finished (header : BlockHeader) (store final : σ) (txs : List TxBody) (start : Nat)
    (finished : runSteps (applyEffect header) store (txs.zipIdx start) = (final, .ok ())) :
    final = (txs.map (effectWrite header)).foldl writeTo store := by
  induction txs generalizing store start with
  | nil =>
      cases finished
      rfl
  | cons tx tail ih =>
      obtain ⟨next, applied, rest⟩ := run_steps_finished_cons (applyEffect header) store final _ _ finished
      rw [List.map_cons, List.foldl_cons, ← apply_effect_ok header store next tx start applied]
      exact ih next (start + 1) rest

theorem validate_tx_same (idx : Nat) (store : σ) (a b : TxBody) (witness : Witness) (same : SameTx a b) :
    validateTx idx store a witness = validateTx idx store b witness := by
  have signing : a.signingHash = b.signingHash := congrArg HashFns.blake3 (signing_preimage_same a b same)
  have nonce : a.nonce = b.nonce := by rw [same.1]
  have sender : a.fromAccount = b.fromAccount := by rw [same.1]
  have fee : a.feeSat = b.feeSat := by rw [same.1]
  simp only [validateTx, resolvePubkey]
  rw [call_target_same idx a b same, signing, nonce, sender, fee]

theorem validate_all_same (store : σ) (witnesses : List Witness) (fees : U128) (a b : List TxBody) (start : Nat)
    (same : List.Forall₂ SameTx a b) :
    validateAll store witnesses fees (a.zipIdx start) = validateAll store witnesses fees (b.zipIdx start) := by
  induction same generalizing fees start with
  | nil => rfl
  | @cons x y xs ys head _ ih =>
      have hash : x.witnessHash = y.witnessHash := by rw [head.1]
      rw [List.zipIdx_cons, List.zipIdx_cons]
      simp only [validateAll]
      rw [hash]
      simp only [validate_tx_same start store x y _ head, ih]

omit [HashFns] [SigFns] in
theorem epilogue_authority (header : BlockHeader) (store paid : σ) (reward fees minted : U128) (reflection : Reflection)
    (coinbase : payCoinbase header store reward fees = .ok (paid, minted)) (jobId : Bytes 32) :
    StateStore.get (activateUpgrade header (writeReflection header paid reflection)) .metadata (attestAuthKey jobId) =
      StateStore.get store .metadata (attestAuthKey jobId) := by
  obtain ⟨_, balance, _, paidEq⟩ := pay_coinbase_ok header store paid reward fees minted coinbase
  have written : StateStore.get (writeReflection header paid reflection) .metadata (attestAuthKey jobId) =
      StateStore.get store .metadata (attestAuthKey jobId) := by
    simp only [writeReflection, saveRecord]
    rw [StateStore.get_put, if_neg (by simp), StateStore.get_put, if_neg (by simp), paidEq, Accounts.save, saveRecord,
      StateStore.get_put, if_neg (by simp)]
  rw [← written]
  simp only [activateUpgrade]
  split
  · rfl
  · split
    · rw [saveRecord, StateStore.get_put, if_neg fun both => attest_auth_key_ne jobId activeCryptoKey (by decide) both.2]
    · rfl

structure SameBlocks (a b : Block) : Prop where
  header : a.header = b.header
  txs : List.Forall₂ SameTx a.body.txs b.body.txs
  witnesses : a.body.witnesses = b.body.witnesses

omit [StateStore σ] [StateCbor] [SigFns] in
theorem same_blocks_of_roots (a b : Block) (sameHeader : a.header = b.header)
    (txRootA : a.header.txRoot = a.body.txRoot) (txRootB : b.header.txRoot = b.body.txRoot)
    (witnessRootA : a.header.witnessRoot = a.body.witnessRoot) (witnessRootB : b.header.witnessRoot = b.body.witnessRoot)
    (collisionFree : CollisionFree (a.body.preimages ++ b.body.preimages))
    (shortA : a.body.ShortSigs) (shortB : b.body.ShortSigs) : SameBlocks a b where
  header := sameHeader
  txs := txs_of_tx_root a.body b.body collisionFree (by rw [← txRootA, ← txRootB, sameHeader])
  witnesses := witnesses_of_witness_root a.body b.body collisionFree shortA shortB
    (by rw [← witnessRootA, ← witnessRootB, sameHeader])

omit [HashFns] [SigFns] [StateCbor] [StateStore σ] in
theorem block_reflection_same (a b : Block) (fees minted : U128) (same : SameBlocks a b) :
    blockReflection a fees minted = blockReflection b fees minted := by
  have senders : a.body.txs.map TxBody.fromAccount = b.body.txs.map TxBody.fromAccount := by
    have txs := same.txs
    generalize a.body.txs = txsA at txs
    generalize b.body.txs = txsB at txs
    induction txs with
    | nil => rfl
    | cons head _ ih => rw [List.map_cons, List.map_cons, ih, head.1]
  rw [blockReflection, blockReflection, same.header, senders]

theorem validate_same_blocks (store : σ) (a b : Block) (same : SameBlocks a b) :
    validateAll store a.body.witnesses 0 a.body.txs.zipIdx = validateAll store b.body.witnesses 0 b.body.txs.zipIdx := by
  rw [validate_all_same store a.body.witnesses 0 _ _ 0 same.txs, same.witnesses]

theorem orders_of_registries (spent affectedA affectedB : σ) (a b : Block) (same : SameBlocks a b)
    (effectsA : runSteps (applyEffect a.header) spent a.body.txs.zipIdx = (affectedA, .ok ()))
    (effectsB : runSteps (applyEffect b.header) spent b.body.txs.zipIdx = (affectedB, .ok ())) (jobId : Bytes 32)
    (read : StateStore.get affectedA .metadata (attestAuthKey jobId) =
      StateStore.get affectedB .metadata (attestAuthKey jobId)) :
    lastRegistered jobId a.body.txs = lastRegistered jobId b.body.txs := by
  have present := registered_same jobId a.body.txs b.body.txs same.txs
  rw [effects_finished a.header spent affectedA a.body.txs 0 effectsA,
    effects_finished b.header spent affectedB b.body.txs 0 effectsB, get_writes, get_writes, last_write_authority,
    last_write_authority, same.header] at read
  cases foundA : lastRegistered jobId a.body.txs <;> cases foundB : lastRegistered jobId b.body.txs <;>
    rw [foundA, foundB] at present read
  · cases present
  · cases present
  · exact congrArg some (authority_bytes_inj b.header jobId _ _ (Option.some.inj read))

theorem contents_of_orders (spent affectedA affectedB : σ) (a b : Block) (same : SameBlocks a b)
    (effectsA : runSteps (applyEffect a.header) spent a.body.txs.zipIdx = (affectedA, .ok ()))
    (effectsB : runSteps (applyEffect b.header) spent b.body.txs.zipIdx = (affectedB, .ok ()))
    (orders : ∀ jobId, lastRegistered jobId a.body.txs = lastRegistered jobId b.body.txs) :
    SameContents affectedA affectedB := by
  intro sub key
  rw [effects_finished a.header spent affectedA a.body.txs 0 effectsA,
    effects_finished b.header spent affectedB b.body.txs 0 effectsB, get_writes, get_writes]
  by_cases slot : IsAuthorityKey sub key
  · obtain ⟨jobId, rfl, rfl⟩ := slot
    rw [last_write_authority, last_write_authority, orders jobId, same.header]
  · rw [same.header, last_write_elsewhere b.header sub key _ _ same.txs slot]

end

end PyGrove.State
