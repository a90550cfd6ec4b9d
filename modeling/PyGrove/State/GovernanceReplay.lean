import PyGrove.Core.Commitment
import PyGrove.State.GovernanceGate

set_option autoImplicit false

namespace PyGrove.State

open Words Steps Events PyGrove.Core Crypto

section
variable [StateCbor]

def governancePreimage (tx : TxBody) : Option (List U8) :=
  match tx.call with
  | .upgradeCrypto targetHeight sigAlgo hashAlgo _ =>
      some (ascii "PGgov:upgrade\x00" ++ leBytes 8 targetHeight.toNat ++ [sigAlgo, hashAlgo])
  | .registerAttestCoordinator jobId coordinators _ =>
      some (ascii "PGgov:regattest\x00" ++ jobId.toList ++ leBytes 4 coordinators.length ++
        (sortIds coordinators).flatMap fun a => a.id.toList)
  | .setGovernance configCbor _ =>
      match StateCbor.governanceConfig.decode configCbor with
      | .error _ => none
      | .ok newCfg =>
          let buf := StateCbor.governanceConfig.encode newCfg
          some (ascii "PGgov:setgov\x00" ++ leBytes 4 buf.length ++ buf)
  | _ => none

inductive SameAction : TxCall → TxCall → Prop where
  | upgradeCrypto (targetHeight : U64) (sigAlgo hashAlgo : U8) (govProof govProof' : List U8) :
      SameAction (.upgradeCrypto targetHeight sigAlgo hashAlgo govProof)
        (.upgradeCrypto targetHeight sigAlgo hashAlgo govProof')
  | registerAttestCoordinator (jobId : Bytes 32) (coordinators coordinators' : List AccountId)
      (govProof govProof' : List U8) (perm : coordinators.Perm coordinators') :
      SameAction (.registerAttestCoordinator jobId coordinators govProof)
        (.registerAttestCoordinator jobId coordinators' govProof')
  | setGovernance (configCbor configCbor' govProof govProof' : List U8) (newCfg : GovernanceConfig)
      (decoded : StateCbor.governanceConfig.decode configCbor = .ok newCfg)
      (decoded' : StateCbor.governanceConfig.decode configCbor' = .ok newCfg) :
      SameAction (.setGovernance configCbor govProof) (.setGovernance configCbor' govProof')

-- The seventh byte of the domain tag tells the three kinds of action apart.
def domainByte : TxCall → U8
  | .upgradeCrypto .. => 0x75
  | .registerAttestCoordinator .. => 0x72
  | _ => 0x73

theorem preimage_domain (tx : TxBody) (preimage : List U8) (hashed : governancePreimage tx = some preimage) :
    preimage[6]? = some (domainByte tx.call) := by
  rw [governancePreimage] at hashed
  generalize tx.call = call at hashed ⊢
  cases call with
  | upgradeCrypto targetHeight sigAlgo hashAlgo govProof =>
      cases hashed
      rfl
  | registerAttestCoordinator jobId coordinators govProof =>
      cases hashed
      rfl
  | setGovernance configCbor govProof =>
      dsimp only at hashed
      split at hashed
      · cases hashed
      · cases hashed
        rfl
  | _ => cases hashed

theorem same_action_of_preimage (a b : TxBody) (preimage : List U8) (first : governancePreimage a = some preimage)
    (second : governancePreimage b = some preimage) : SameAction a.call b.call := by
  have domains : domainByte a.call = domainByte b.call :=
    Option.some.inj ((preimage_domain a preimage first).symm.trans (preimage_domain b preimage second))
  rw [governancePreimage] at first second
  generalize a.call = callA at first domains ⊢
  generalize b.call = callB at second domains ⊢
  cases callA with
  | upgradeCrypto targetHeight sigAlgo hashAlgo govProof =>
      cases callB with
      | upgradeCrypto targetHeight' sigAlgo' hashAlgo' govProof' =>
          have same := Option.some.inj (first.trans second.symm)
          rw [List.append_assoc, List.append_assoc] at same
          obtain ⟨height, algos⟩ := List.append_inj (List.append_cancel_left same) (by simp)
          obtain ⟨sig, hash⟩ := List.cons.inj algos
          rw [le_bytes_word_inj targetHeight targetHeight' (by decide) height, sig, (List.cons.inj hash).1]
          exact .upgradeCrypto ..
      | registerAttestCoordinator jobId coordinators govProof => simp [domainByte] at domains
      | setGovernance configCbor govProof => simp [domainByte] at domains
      | _ => cases second
  | registerAttestCoordinator jobId coordinators govProof =>
      cases callB with
      | registerAttestCoordinator jobId' coordinators' govProof' =>
          have same := Option.some.inj (first.trans second.symm)
          simp only [List.append_assoc] at same
          obtain ⟨job, rest⟩ := List.append_inj (List.append_cancel_left same) (by simp)
          obtain ⟨_, ids⟩ := List.append_inj rest (by simp)
          rw [List.Vector.eq _ _ job]
          exact .registerAttestCoordinator _ _ _ _ _ (coordinators_read_back coordinators coordinators' ids).1
      | upgradeCrypto targetHeight sigAlgo hashAlgo govProof => simp [domainByte] at domains
      | setGovernance configCbor govProof => simp [domainByte] at domains
      | _ => cases second
  | setGovernance configCbor govProof =>
      cases callB with
      | setGovernance configCbor' govProof' =>
          dsimp only at first second
          cases decoded : StateCbor.governanceConfig.decode configCbor with
          | error e =>
              rw [decoded] at first
              cases first
          | ok newCfg =>
              cases decoded' : StateCbor.governanceConfig.decode configCbor' with
              | error e =>
                  rw [decoded'] at second
                  cases second
              | ok newCfg' =>
                  rw [decoded] at first
                  rw [decoded'] at second
                  have same := Option.some.inj (first.trans second.symm)
                  rw [List.append_assoc, List.append_assoc] at same
                  obtain ⟨_, bytes⟩ := List.append_inj (List.append_cancel_left same) (by simp)
                  have config := StateCbor.governanceConfig.encode_injective _ _ bytes
                  exact .setGovernance _ _ _ _ newCfg decoded (config ▸ decoded')
      | upgradeCrypto targetHeight sigAlgo hashAlgo govProof => simp [domainByte] at domains
      | registerAttestCoordinator jobId coordinators govProof => simp [domainByte] at domains
      | _ => cases second
  | _ => cases first

theorem action_payload [HashFns] (tx : TxBody) (action : GovernanceAction) (acts : governanceAction tx = some action) :
    ∃ preimage, governancePreimage tx = some preimage ∧ action.payload = HashFns.blake3 preimage := by
  rw [governanceAction] at acts
  rw [governancePreimage]
  generalize tx.call = call at acts ⊢
  cases call with
  | upgradeCrypto targetHeight sigAlgo hashAlgo govProof =>
      cases acts
      exact ⟨_, rfl, rfl⟩
  | registerAttestCoordinator jobId coordinators govProof =>
      cases acts
      exact ⟨_, rfl, rfl⟩
  | setGovernance configCbor govProof =>
      dsimp only at acts ⊢
      cases decoded : StateCbor.governanceConfig.decode configCbor with
      | error e =>
          rw [decoded] at acts
          cases acts
      | ok newCfg =>
          rw [decoded] at acts
          cases acts
          exact ⟨_, rfl, rfl⟩
  | _ => cases acts

end

section
variable [SigFns]

theorem counted_signature (cfg : GovernanceConfig) (msg : Bytes 32) (seen : List (Bytes 32)) (verified : U32)
    (signatures : List GovernanceSig) (reached : countSignatures cfg msg seen verified signatures = .ok ()) :
    ∃ sig ∈ signatures, ∃ signer ∈ cfg.signers, SigFns.verify signer.sigAlgo signer.pubkey sig.sig msg.toList = .ok () := by
  induction signatures generalizing seen verified with
  | nil => cases reached
  | cons sig tail ih =>
      have later : ∀ seen verified, countSignatures cfg msg seen verified tail = .ok () →
          ∃ sig' ∈ sig :: tail, ∃ signer ∈ cfg.signers,
            SigFns.verify signer.sigAlgo signer.pubkey sig'.sig msg.toList = .ok () := by
        intro seen verified rest
        obtain ⟨sig', member, signed⟩ := ih seen verified rest
        exact ⟨sig', List.mem_cons_of_mem _ member, signed⟩
      rw [countSignatures] at reached
      split at reached
      · exact later _ _ reached
      · split at reached
        · exact later _ _ reached
        · rename_i signer known
          split at reached
          · exact later _ _ reached
          · rename_i signed
            exact ⟨sig, List.mem_cons_self, signer, List.mem_of_find?_eq_some known, signed⟩

theorem verified_signature (cfg : GovernanceConfig) (proof : GovernanceProof) (msg : Bytes 32)
    (verified : verifyGovernanceProof cfg proof msg = .ok ()) :
    ∃ sig ∈ proof.signatures, ∃ signer ∈ cfg.signers,
      SigFns.verify signer.sigAlgo signer.pubkey sig.sig msg.toList = .ok () := by
  rw [verifyGovernanceProof, guard_ok] at verified
  exact counted_signature cfg msg [] 0 proof.signatures verified.2

structure KeepsSigners (old new : GovernanceConfig) : Prop where
  signers : ∀ (id : Bytes 32) (signer : GovernanceSigner), old.signers.find? (fun s => s.signerId = id) = some signer →
    new.signers.find? (fun s => s.signerId = id) = some signer
  positive : 0 < new.threshold.toNat
  threshold : new.threshold.toNat ≤ old.threshold.toNat

theorem count_signatures_keeps (old new : GovernanceConfig) (keeps : KeepsSigners old new) (msg : Bytes 32)
    (seen : List (Bytes 32)) (before after : U32) (signatures : List GovernanceSig)
    (reached : countSignatures old msg seen before signatures = .ok ()) (ahead : before.toNat ≤ after.toNat)
    (open' : after.toNat < new.threshold.toNat) : countSignatures new msg seen after signatures = .ok () := by
  have bound := new.threshold.isLt
  have lower := keeps.threshold
  have oldBound := old.threshold.isLt
  induction signatures generalizing seen before after with
  | nil => cases reached
  | cons sig tail ih =>
      have afterSucc := to_nat_succ after (by omega)
      have beforeSucc := to_nat_succ before (by omega)
      rw [countSignatures] at reached ⊢
      by_cases repeated : sig.signerId ∈ seen
      · rw [if_pos repeated] at reached ⊢
        exact ih seen before after reached ahead open'
      · rw [if_neg repeated] at reached ⊢
        cases known : old.signers.find? (fun s => s.signerId = sig.signerId) with
        | some signer =>
            rw [known] at reached
            rw [keeps.signers _ signer known]
            dsimp only at reached ⊢
            cases signed : SigFns.verify signer.sigAlgo signer.pubkey sig.sig msg.toList with
            | error e =>
                rw [signed] at reached
                exact ih _ before after reached ahead open'
            | ok passed =>
                rw [signed] at reached
                dsimp only at reached ⊢
                by_cases enough : new.threshold ≤ after + 1
                · rw [if_pos enough]
                · rw [BitVec.le_def, afterSucc] at enough
                  have short : ¬ old.threshold ≤ before + 1 := by
                    rw [BitVec.le_def, beforeSucc]
                    omega
                  rw [if_neg short] at reached
                  rw [if_neg (by rw [BitVec.le_def, afterSucc]; exact enough)]
                  exact ih _ (before + 1) (after + 1) reached (by omega) (by omega)
        | none =>
            rw [known] at reached
            dsimp only at reached
            split
            · exact ih _ before after reached ahead open'
            · split
              · exact ih _ before after reached ahead open'
              · by_cases enough : new.threshold ≤ after + 1
                · rw [if_pos enough]
                · rw [if_neg enough]
                  rw [BitVec.le_def, afterSucc] at enough
                  exact ih _ before (after + 1) reached (by omega) (by omega)

theorem proof_passes_again (old new : GovernanceConfig) (keeps : KeepsSigners old new) (proof : GovernanceProof)
    (msg : Bytes 32) (verified : verifyGovernanceProof old proof msg = .ok ()) :
    verifyGovernanceProof new proof msg = .ok () := by
  rw [verifyGovernanceProof, guard_ok] at verified ⊢
  obtain ⟨many, reached⟩ := verified
  have lower := keeps.threshold
  refine ⟨?_, count_signatures_keeps old new keeps msg [] 0 0 proof.signatures reached (Nat.le_refl _) keeps.positive⟩
  rw [BitVec.lt_def] at many ⊢
  omega

end

section
variable [StateCbor] [HashFns] [SigFns]

-- What is hashed into the payloads of a run. Only on these the hash is assumed
-- not to collide.
def runPreimages (run : List (Block × U128)) : List (List U8) :=
  (runEvents run).filterMap fun event => governancePreimage event.tx

def runPayloads (run : List (Block × U128)) : List (Bytes 32) :=
  (runEvents run).filterMap fun event => (governanceAction event.tx).map GovernanceAction.payload

def runSigners (start : MemState) (run : List (Block × U128)) : List GovernanceSigner :=
  (List.range (runEvents run).length).flatMap fun p =>
    ((loadGovernance (effectStateAt start run p)).map GovernanceConfig.signers).getD []

def SignedOver (start : MemState) (run : List (Block × U128)) (proof : GovernanceProof) (msg : Bytes 32) : Prop :=
  ∀ sig ∈ proof.signatures, ∀ signer ∈ runSigners start run, ∀ other ∈ runPayloads run,
    SigFns.verify signer.sigAlgo signer.pubkey sig.sig other.toList = .ok () → other = msg

theorem event_signature (start : MemState) (run : List (Block × U128)) (accepted : AllAccepted start run)
    (installed : ConfigInForce start) (p : Nat) (event : TxEvent) (found : (runEvents run)[p]? = some event)
    (action : GovernanceAction) (acts : governanceAction event.tx = some action) (proof : GovernanceProof)
    (decoded : StateCbor.governanceProof.decode action.govProof = .ok proof) :
    ∃ sig ∈ proof.signatures, ∀ msg whole, SignedOver start run whole msg → sig ∈ whole.signatures → action.payload = msg := by
  obtain ⟨cfg, loaded, proof', decoded', verified⟩ := event_passes_gate start run accepted installed p event found action acts
  obtain rfl : proof = proof' := Except.ok.inj (decoded.symm.trans decoded')
  obtain ⟨sig, member, signer, seated, good⟩ := verified_signature cfg proof action.payload verified
  refine ⟨sig, member, fun msg whole signed inside => signed sig inside signer ?_ action.payload ?_ good⟩
  · refine List.mem_flatMap.mpr ⟨p, List.mem_range.mpr (List.getElem?_eq_some_iff.mp found).1, ?_⟩
    rw [loaded]
    exact seated
  · exact List.mem_filterMap.mpr ⟨event, List.mem_of_getElem? found, by rw [acts]; rfl⟩

-- A proof is good for one action only, but for that one it does not wear out:
-- nothing in the payloads says when, or how often, it may be used.
theorem proof_bound_to_action (start : MemState) (run : List (Block × U128)) (accepted : AllAccepted start run)
    (installed : ConfigInForce start)
    (collisionFree : Set.InjOn HashFns.blake3 {bytes | bytes ∈ runPreimages run}) (p q : Nat) (first later : TxEvent)
    (firstFound : (runEvents run)[p]? = some first) (laterFound : (runEvents run)[q]? = some later)
    (asked again : GovernanceAction) (firstActs : governanceAction first.tx = some asked)
    (laterActs : governanceAction later.tx = some again) (proof resubmitted : GovernanceProof)
    (decoded : StateCbor.governanceProof.decode asked.govProof = .ok proof)
    (redecoded : StateCbor.governanceProof.decode again.govProof = .ok resubmitted)
    (reused : resubmitted.signatures ⊆ proof.signatures) (msg : Bytes 32) (signed : SignedOver start run proof msg) :
    SameAction first.tx.call later.tx.call ∧
      ∀ old new, loadGovernance (effectStateAt start run p) = some old → KeepsSigners old new → PassesGate new asked := by
  constructor
  · obtain ⟨sig, member, covers⟩ := event_signature start run accepted installed p first firstFound asked firstActs proof decoded
    obtain ⟨sig', member', covers'⟩ :=
      event_signature start run accepted installed q later laterFound again laterActs resubmitted redecoded
    have payloads : asked.payload = again.payload :=
      (covers msg proof signed member).trans (covers' msg proof signed (reused member')).symm
    obtain ⟨preimage, hashed, payload⟩ := action_payload first.tx asked firstActs
    obtain ⟨preimage', hashed', payload'⟩ := action_payload later.tx again laterActs
    rw [payload, payload'] at payloads
    have same := collisionFree (List.mem_filterMap.mpr ⟨first, List.mem_of_getElem? firstFound, hashed⟩)
      (List.mem_filterMap.mpr ⟨later, List.mem_of_getElem? laterFound, hashed'⟩) payloads
    exact same_action_of_preimage first.tx later.tx preimage hashed (same ▸ hashed')
  · intro old new inForce keeps
    obtain ⟨cfg, loaded, verifiedProof, verifiedDecoded, verified⟩ :=
      event_passes_gate start run accepted installed p first firstFound asked firstActs
    obtain rfl : cfg = old := Option.some.inj (loaded.symm.trans inForce)
    exact ⟨verifiedProof, verifiedDecoded, proof_passes_again cfg new keeps verifiedProof asked.payload verified⟩

end

open Sample in
def replayRun : List (Block × U128) :=
  [oneTx 1 0 (List.replicate 32 7) (register [.fromPubkey (List.replicate 32 7)]),
    oneTx 2 1 (List.replicate 32 7) (register [.fromPubkey (List.replicate 32 8)]),
    oneTx 3 0 (List.replicate 32 9) (register [.fromPubkey (List.replicate 32 7)])]

open Sample in
theorem replay_run_accepted : AllAccepted governed replayRun := by
  simp only [AllAccepted]
  decide +kernel

open Sample in
def registration : GovernanceAction :=
  ⟨attestAuthKey (.replicate 32 4), approve (registerAttestGovPayload (.replicate 32 4) [.fromPubkey (List.replicate 32 7)]),
    registerAttestGovPayload (.replicate 32 4) [.fromPubkey (List.replicate 32 7)]⟩

open Sample in
theorem registration_signed_over :
    ∃ proof, StateCbor.governanceProof.decode registration.govProof = .ok proof ∧
      SignedOver governed replayRun proof registration.payload := by
  have inForce : ∀ p < 3, loadGovernance (effectStateAt governed replayRun p) = some (committee 1) := by decide +kernel
  refine ⟨_, StateCbor.governanceProof.decode_encode _, ?_⟩
  intro sig member signer seated other _ good
  obtain rfl := List.mem_singleton.mp member
  obtain ⟨p, inside, listed⟩ := List.mem_flatMap.mp seated
  rw [inForce p (List.mem_range.mp inside)] at listed
  obtain rfl := List.mem_singleton.mp listed
  have signed : sign 3 memberKey registration.payload.toList = sign 3 memberKey other.toList := by
    simp only [SigFns.verify] at good
    split at good
    · cases good
    · split at good
      · assumption
      · cases good
  exact List.Vector.eq _ _ (List.append_cancel_left (List.cons.inj signed).2).symm

open Sample in
theorem registration_bound_to_action :
    SameAction ((runEvents replayRun).get ⟨0, by decide⟩).tx.call ((runEvents replayRun).get ⟨2, by decide⟩).tx.call ∧
      PassesGate (committee 2) registration := by
  have collisionFree : ∀ a ∈ runPreimages replayRun, ∀ b ∈ runPreimages replayRun,
      HashFns.blake3 a = HashFns.blake3 b → a = b := by decide +kernel
  have inForce : loadGovernance (effectStateAt governed replayRun 0) = some (committee 1) := by decide +kernel
  obtain ⟨proof, decoded, signed⟩ := registration_signed_over
  have bound := proof_bound_to_action governed replayRun replay_run_accepted governed_config_in_force
    (fun a first b second => collisionFree a first b second) 0 2 ((runEvents replayRun).get ⟨0, by decide⟩)
    ((runEvents replayRun).get ⟨2, by decide⟩) rfl rfl registration registration rfl rfl proof proof decoded decoded
    (List.Subset.refl _) registration.payload signed
  exact ⟨bound.1, bound.2 (committee 1) (committee 2) inForce ⟨fun _ _ found => found, by decide, Nat.le_refl _⟩⟩

open Sample in
theorem replaced_list_restored :
    AllAccepted governed replayRun ∧ ConfigInForce governed ∧
      (∃ proof, StateCbor.governanceProof.decode registration.govProof = .ok proof ∧
        SignedOver governed replayRun proof registration.payload) ∧
      (∀ p ∈ [0, 2], ((runEvents replayRun)[p]?.bind fun event => governanceAction event.tx) = some registration) ∧
      [1, 2, 3].map (fun blocks => (loadAttestAuthority (runCalls applyCall governed (replayRun.take blocks))
        (.replicate 32 4)).map CoordinatorAuthority.coordinators) =
        [some [(AccountId.fromPubkey (List.replicate 32 7)).id], some [(AccountId.fromPubkey (List.replicate 32 8)).id],
          some [(AccountId.fromPubkey (List.replicate 32 7)).id]] := by
  refine ⟨replay_run_accepted, governed_config_in_force, registration_signed_over, ?_, by decide +kernel⟩
  intro p member
  rcases List.mem_pair.mp member with rfl | rfl <;> rfl

end PyGrove.State
