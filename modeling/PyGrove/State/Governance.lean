import PyGrove.Crypto.Verify
import PyGrove.State.Records

set_option autoImplicit false

namespace PyGrove.State

open Words PyGrove.Core Crypto

def distinctSigners (seen : List (Bytes 32)) : List GovernanceSigner → Except String Unit
  | [] => .ok ()
  | s :: tail =>
      if s.signerId ∈ seen then .error "governance: duplicate signer_id"
      else distinctSigners (s.signerId :: seen) tail

def GovernanceConfig.validate (cfg : GovernanceConfig) : Except String Unit :=
  if cfg.signers.isEmpty then .error "governance: signers cannot be empty"
  else if cfg.threshold = 0 then .error "governance: threshold must be > 0"
  else if cfg.threshold.toNat > cfg.signers.length then .error "governance: threshold > signers.len()"
  else distinctSigners [] cfg.signers

inductive GovernanceError where
  | belowThreshold (got need : U32)
deriving DecidableEq

def GovernanceError.text : GovernanceError → String
  | .belowThreshold got need => s!"governance proof below threshold: got {got.toNat}, need {need.toNat}"

section
variable [SigFns]

-- The loop of verify_governance_proof. A duplicate or unknown signer_id is
-- skipped, a bad signature is not counted, and the threshold ends the loop.
def countSignatures (cfg : GovernanceConfig) (msg : Bytes 32) (seen : List (Bytes 32)) (verified : U32) :
    List GovernanceSig → Except GovernanceError Unit
  | [] => .error (.belowThreshold verified cfg.threshold)
  | sig :: tail =>
      if sig.signerId ∈ seen then countSignatures cfg msg seen verified tail
      else
        match cfg.signers.find? (fun s => s.signerId = sig.signerId) with
        | none => countSignatures cfg msg (sig.signerId :: seen) verified tail
        | some signer =>
            match SigFns.verify signer.sigAlgo signer.pubkey sig.sig msg.toList with
            | .error _ => countSignatures cfg msg (sig.signerId :: seen) verified tail
            | .ok () =>
                if cfg.threshold ≤ verified + 1 then .ok ()
                else countSignatures cfg msg (sig.signerId :: seen) (verified + 1) tail

def verifyGovernanceProof (cfg : GovernanceConfig) (proof : GovernanceProof) (msg : Bytes 32) :
    Except GovernanceError Unit :=
  if BitVec.ofNat 32 proof.signatures.length < cfg.threshold then
    .error (.belowThreshold (BitVec.ofNat 32 proof.signatures.length) cfg.threshold)
  else countSignatures cfg msg [] 0 proof.signatures

end

section
variable [HashFns]

def upgradeCryptoGovPayload (targetHeight : U64) (sigAlgo hashAlgo : U8) : Bytes 32 :=
  HashFns.blake3 (ascii "PGgov:upgrade\x00" ++ leBytes 8 targetHeight.toNat ++ [sigAlgo, hashAlgo])

def registerAttestGovPayload (jobId : Bytes 32) (coordinators : List AccountId) : Bytes 32 :=
  HashFns.blake3 (ascii "PGgov:regattest\x00" ++ jobId.toList ++ leBytes 4 coordinators.length ++
    (sortIds coordinators).flatMap (fun a => a.id.toList))

def setGovernanceGovPayload [StateCbor] (newConfig : GovernanceConfig) : Bytes 32 :=
  let buf := StateCbor.governanceConfig.encode newConfig
  HashFns.blake3 (ascii "PGgov:setgov\x00" ++ leBytes 4 buf.length ++ buf)

end

def governanceKey : List U8 := ascii "governance"

def loadGovernance {σ : Type} [StateStore σ] [StateCbor] (store : σ) : Option GovernanceConfig :=
  loadRecord StateCbor.governanceConfig store .metadata governanceKey

end PyGrove.State
