import Mathlib.Data.List.Dedup
import PyGrove.Lib.Steps
import PyGrove.State.Governance

set_option autoImplicit false

namespace PyGrove.State

open Words Steps PyGrove.Core Crypto

inductive ApplyError where
  | witnessMissing (idx : Nat)
  | witnessHashMismatch (idx : Nat)
  | accountUnknown (idx : Nat) (account : AccountId)
  | pubKeyMismatch (idx : Nat)
  | badSignature (idx : Nat) (reason : CryptoError)
  | nonceMismatch (idx : Nat) (got expected : U64)
  | insufficientBalance (idx : Nat) (balance required : U128)
  | amountOverflow (idx : Nat)
  | unsupportedCall (idx : Nat)
  | algoMismatch (idx : Nat) (algo sigAlgo : U8)
  | upgradeSigAlgoNotAllowed (idx : Nat) (sigAlgo : U8)
  | upgradeHashAlgoNotAllowed (idx : Nat) (hashAlgo : U8)
  | attestCoordinatorNotAuthorized (idx : Nat)
  | pedigreeCageCodeInvalid (idx : Nat)
  | governanceProofMissing (idx : Nat)
  | governanceProofInvalid (idx : Nat) (reason : String)
  | governanceConfigInvalid (idx : Nat) (reason : String)
  | coinbaseOverflow
deriving DecidableEq

structure ApplyOutput where
  txsApplied : Nat
  feesCollectedSat : U128
  coinbaseMintedSat : U128
  stateRoot : Bytes 32
deriving DecidableEq

structure StagedTx where
  idx : Nat
  fromAccount : AccountId
  expectedNonce : U64
  toAccount : AccountId
  amount : U128
  feeSat : U64
  pubkeyBytes : List U8
  sigAlgo : U8
deriving DecidableEq

def pedigreeKeyPrefix : List U8 := ascii "ped/"
def attestAuthKeyPrefix : List U8 := ascii "attau"
def upgradeCryptoKey : List U8 := ascii "upgrade_crypto"
def activeCryptoKey : List U8 := ascii "active_crypto"
def latestKey : List U8 := ascii "latest"

def attestKey (jobId : Bytes 32) (roundId : U64) : List U8 := jobId.toList ++ beBytes 8 roundId.toNat
def pedigreeKey (jobId : Bytes 32) (lotId : Bytes 16) : List U8 := pedigreeKeyPrefix ++ jobId.toList ++ lotId.toList
def attestAuthKey (jobId : Bytes 32) : List U8 := attestAuthKeyPrefix ++ jobId.toList
def blockKey (height : U64) : List U8 := ascii "block/" ++ beBytes 8 height.toNat

def isValidCage (cage : Bytes 5) : Bool :=
  cage.toList.all fun b => (0x41 ≤ b && b ≤ 0x5A) || (0x30 ≤ b && b ≤ 0x39)

section
variable {σ : Type} [StateStore σ] [StateCbor]

def loadAttestAuthority (store : σ) (jobId : Bytes 32) : Option CoordinatorAuthority :=
  loadRecord StateCbor.coordinatorAuthority store .metadata (attestAuthKey jobId)

def loadActiveCrypto (store : σ) : Option ActiveCrypto :=
  loadRecord StateCbor.activeCrypto store .metadata activeCryptoKey

def loadLatestReflection (store : σ) : Option Reflection :=
  loadRecord StateCbor.reflection store .reflect latestKey

def loadReflectionAt (store : σ) (height : U64) : Option Reflection :=
  loadRecord StateCbor.reflection store .reflect (blockKey height)

end

section Validation
variable {σ : Type} [StateStore σ] [StateCbor] [HashFns] [SigFns]

-- The (to, amount) pair of a tx. Every supported call but a transfer moves
-- nothing: it is a self-transfer of zero, so that the apply pass exists.
def callTarget (idx : Nat) (tx : TxBody) : Except ApplyError (AccountId × U128) :=
  match tx.call with
  | .transfer toAccount amount => .ok (toAccount, amount)
  | .upgradeCrypto .. => .ok (tx.fromAccount, 0)
  | .attestRound .. => .ok (tx.fromAccount, 0)
  | .registerAttestCoordinator .. => .ok (tx.fromAccount, 0)
  | .attestPedigree .. => .ok (tx.fromAccount, 0)
  | .setGovernance .. => .ok (tx.fromAccount, 0)
  | .deployContract .. => .error (.unsupportedCall idx)
  | .callContract .. => .error (.unsupportedCall idx)

def resolvePubkey (idx : Nat) (store : σ) (tx : TxBody) (witness : Witness) : Except ApplyError (List U8) :=
  match witness.pubkey with
  | .inline bytes =>
      if AccountId.fromPubkey bytes ≠ tx.fromAccount then .error (.pubKeyMismatch idx) else .ok bytes
  | .known _ =>
      match Accounts.load store tx.fromAccount with
      | none => .error (.accountUnknown idx tx.fromAccount)
      | some acct =>
          if acct.pubkey.isEmpty then .error (.accountUnknown idx tx.fromAccount)
          else if acct.sigAlgo ≠ witness.sigAlgo then .error (.algoMismatch idx acct.sigAlgo witness.sigAlgo)
          else .ok acct.pubkey

def checkSpend (idx : Nat) (acct : Account) (nonce : U64) (amount : U128) (feeSat : U64)
    (mismatch : ApplyError) : Except ApplyError U128 :=
  if nonce ≠ acct.nonce then .error mismatch
  else
    match checkedAdd amount (feeSat.setWidth 128) with
    | none => .error (.amountOverflow idx)
    | some required =>
        if acct.balance < required then .error (.insufficientBalance idx acct.balance required)
        else .ok required

def validateTx (idx : Nat) (store : σ) (tx : TxBody) (witness : Witness) : Except ApplyError StagedTx :=
  match callTarget idx tx with
  | .error e => .error e
  | .ok (toAccount, amount) =>
      match resolvePubkey idx store tx witness with
      | .error e => .error e
      | .ok pubkeyBytes =>
          match SigFns.verify witness.sigAlgo pubkeyBytes witness.sig tx.signingHash.toList with
          | .error e => .error (.badSignature idx e)
          | .ok () =>
              let acct := Accounts.loadOrDefault store tx.fromAccount
              match checkSpend idx acct tx.nonce amount tx.feeSat (.nonceMismatch idx tx.nonce acct.nonce) with
              | .error e => .error e
              | .ok _ =>
                  .ok
                    { idx
                      fromAccount := tx.fromAccount
                      expectedNonce := acct.nonce
                      toAccount
                      amount
                      feeSat := tx.feeSat
                      pubkeyBytes
                      sigAlgo := witness.sigAlgo }

def validateAll (store : σ) (witnesses : List Witness) :
    U128 → List (TxBody × Nat) → Except ApplyError (U128 × List StagedTx)
  | fees, [] => .ok (fees, [])
  | fees, (tx, i) :: tail =>
      match witnesses[i]? with
      | none => .error (.witnessMissing i)
      | some witness =>
          if witness.hash ≠ tx.witnessHash then .error (.witnessHashMismatch i)
          else
            match validateTx i store tx witness with
            | .error e => .error e
            | .ok staged =>
                match checkedAdd fees (staged.feeSat.setWidth 128) with
                | none => .error .coinbaseOverflow
                | some total =>
                    match validateAll store witnesses total tail with
                    | .error e => .error e
                    | .ok (feesTotal, rest) => .ok (feesTotal, staged :: rest)

end Validation

section Application
variable {σ : Type} [StateStore σ] [StateCbor]

def debitSender (acct : Account) (required : U128) (tx : StagedTx) : Account :=
  { balance := acct.balance - required
    nonce := saturatingAdd acct.nonce 1
    pubkey := if acct.pubkey.isEmpty then tx.pubkeyBytes else acct.pubkey
    sigAlgo := if acct.pubkey.isEmpty then tx.sigAlgo else acct.sigAlgo }

def applyStaged (store : σ) (tx : StagedTx) : Except ApplyError σ :=
  let acct := Accounts.loadOrDefault store tx.fromAccount
  match checkSpend tx.idx acct tx.expectedNonce tx.amount tx.feeSat
      (.nonceMismatch tx.idx acct.nonce tx.expectedNonce) with
  | .error e => .error e
  | .ok required =>
      let debited := Accounts.save store tx.fromAccount (debitSender acct required tx)
      let toAcct := Accounts.loadOrDefault debited tx.toAccount
      .ok (Accounts.save debited tx.toAccount { toAcct with balance := saturatingAdd toAcct.balance tx.amount })

def payCoinbase (header : BlockHeader) (store : σ) (blockRewardSat feesTotal : U128) :
    Except ApplyError (σ × U128) :=
  let miner := AccountId.fromCoinbase header.coinbase
  let minerAcct := Accounts.loadOrDefault store miner
  match checkedAdd blockRewardSat feesTotal with
  | none => .error .coinbaseOverflow
  | some totalMinted =>
      match checkedAdd minerAcct.balance totalMinted with
      | none => .error .coinbaseOverflow
      | some balance => .ok (Accounts.save store miner { minerAcct with balance }, totalMinted)

-- The record of the block just applied; the ratios and the bias are zeroed at
-- this layer.
def blockReflection (block : Block) (feesTotal totalMinted : U128) : Reflection :=
  { hashrateProxy := block.header.bits.setWidth 128
    activeAddresses := BitVec.ofNat 64 (block.body.txs.map TxBody.fromAccount).dedup.length
    feeSum := feesTotal
    emission := totalMinted
    rHQ64 := 0
    rAQ64 := 0
    stabilityBias := 0 }

def writeReflection (header : BlockHeader) (store : σ) (reflection : Reflection) : σ :=
  saveRecord StateCbor.reflection
    (saveRecord StateCbor.reflection store .reflect (blockKey header.height) reflection)
    .reflect latestKey reflection

def activateUpgrade (header : BlockHeader) (store : σ) : σ :=
  match loadRecord StateCbor.pendingCryptoUpgrade store .metadata upgradeCryptoKey with
  | none => store
  | some pending =>
      if pending.targetHeight = header.height then
        saveRecord StateCbor.activeCrypto store .metadata activeCryptoKey
          { sigAlgo := pending.sigAlgo
            hashAlgo := pending.hashAlgo
            activatedAtHeight := header.height }
      else store

variable [HashFns] [SigFns]

-- The three copies of the governance gate, over the payload of the action.
-- Without a committed config (bootstrap mode) any proof passes.
def governanceGate (idx : Nat) (store : σ) (govProof : List U8) (payload : Bytes 32) : Except ApplyError Unit :=
  match loadGovernance store with
  | none => .ok ()
  | some cfg =>
      if govProof.isEmpty then .error (.governanceProofMissing idx)
      else
        match StateCbor.governanceProof.decode govProof with
        | .error e => .error (.governanceProofInvalid idx s!"decode: {e}")
        | .ok proof =>
            match verifyGovernanceProof cfg proof payload with
            | .error e => .error (.governanceProofInvalid idx e.text)
            | .ok () => .ok ()

def attestAuthorized (idx : Nat) (store : σ) (jobId : Bytes 32) (sender : AccountId) : Except ApplyError Unit :=
  match loadAttestAuthority store jobId with
  | none => .ok ()
  | some authority =>
      if !authority.coordinators.isEmpty && !authority.coordinators.contains sender.id then
        .error (.attestCoordinatorNotAuthorized idx)
      else .ok ()

def applyEffect (header : BlockHeader) (store : σ) (item : TxBody × Nat) : Except ApplyError σ :=
  let (tx, i) := item
  match tx.call with
  | .attestRound jobId roundId modelHash dpEpsilonMilli =>
      match attestAuthorized i store jobId tx.fromAccount with
      | .error e => .error e
      | .ok () =>
          .ok (saveRecord StateCbor.attestRecord store .attest (attestKey jobId roundId)
            { jobId, roundId, modelHash, dpEpsilonMilli
              coordinator := tx.fromAccount.id
              blockHeight := header.height
              blockTimestampMs := header.timestampMs })
  | .registerAttestCoordinator jobId coordinators govProof =>
      match governanceGate i store govProof (registerAttestGovPayload jobId coordinators) with
      | .error e => .error e
      | .ok () =>
          .ok (saveRecord StateCbor.coordinatorAuthority store .metadata (attestAuthKey jobId)
            { jobId
              coordinators := coordinators.map AccountId.id
              registeredAtHeight := header.height })
  | .attestPedigree jobId lotId supplier cageCode attestationAuthority =>
      if !isValidCage cageCode then .error (.pedigreeCageCodeInvalid i)
      else
        match attestAuthorized i store jobId tx.fromAccount with
        | .error e => .error e
        | .ok () =>
            .ok (saveRecord StateCbor.pedigreeRecord store .attest (pedigreeKey jobId lotId)
              { jobId, lotId, supplier, cageCode, attestationAuthority
                attester := tx.fromAccount.id
                blockHeight := header.height
                blockTimestampMs := header.timestampMs })
  | .upgradeCrypto targetHeight sigAlgo hashAlgo govProof =>
      if !allowedSig sigAlgo then .error (.upgradeSigAlgoNotAllowed i sigAlgo)
      else if !allowedHash hashAlgo then .error (.upgradeHashAlgoNotAllowed i hashAlgo)
      else
        match governanceGate i store govProof (upgradeCryptoGovPayload targetHeight sigAlgo hashAlgo) with
        | .error e => .error e
        | .ok () =>
            .ok (saveRecord StateCbor.pendingCryptoUpgrade store .metadata upgradeCryptoKey
              { targetHeight, sigAlgo, hashAlgo
                announcedAtHeight := header.height })
  | .setGovernance configCbor govProof =>
      match StateCbor.governanceConfig.decode configCbor with
      | .error e => .error (.governanceConfigInvalid i s!"decode: {e}")
      | .ok newCfg =>
          match newCfg.validate with
          | .error reason => .error (.governanceConfigInvalid i reason)
          | .ok () =>
              match governanceGate i store govProof (setGovernanceGovPayload newCfg) with
              | .error e => .error e
              | .ok () => .ok (saveRecord StateCbor.governanceConfig store .metadata governanceKey newCfg)
  | .transfer .. => .ok store
  | .deployContract .. => .ok store
  | .callContract .. => .ok store

-- The store comes back together with the result: on an error it is whatever
-- the writes made so far left, since MemState has no rollback.
def applyBlock (store : σ) (block : Block) (blockRewardSat : U128) : σ × Except ApplyError ApplyOutput :=
  match validateAll store block.body.witnesses 0 block.body.txs.zipIdx with
  | .error e => (store, .error e)
  | .ok (feesTotal, staged) =>
      match runSteps applyStaged store staged with
      | (spent, .error e) => (spent, .error e)
      | (spent, .ok ()) =>
          match runSteps (applyEffect block.header) spent block.body.txs.zipIdx with
          | (affected, .error e) => (affected, .error e)
          | (affected, .ok ()) =>
              match payCoinbase block.header affected blockRewardSat feesTotal with
              | .error e => (affected, .error e)
              | .ok (paid, totalMinted) =>
                  let final := activateUpgrade block.header
                    (writeReflection block.header paid (blockReflection block feesTotal totalMinted))
                  (final, .ok
                    { txsApplied := block.body.txs.length
                      feesCollectedSat := feesTotal
                      coinbaseMintedSat := totalMinted
                      stateRoot := StateStore.root final })

end Application

end PyGrove.State
