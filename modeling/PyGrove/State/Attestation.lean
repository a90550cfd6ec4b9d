import PyGrove.State.GovernanceGate

set_option autoImplicit false

namespace PyGrove.State

open Words Steps Events PyGrove.Core Crypto

inductive Attestation where
  | round (record : AttestRecord)
  | pedigree (record : PedigreeRecord)
deriving DecidableEq

namespace Attestation

def jobId : Attestation → Bytes 32
  | .round record => record.jobId
  | .pedigree record => record.jobId

def key : Attestation → List U8
  | .round record => attestKey record.jobId record.roundId
  | .pedigree record => pedigreeKey record.jobId record.lotId

def attester : Attestation → Bytes 20
  | .round record => record.coordinator
  | .pedigree record => record.attester

def blockHeight : Attestation → U64
  | .round record => record.blockHeight
  | .pedigree record => record.blockHeight

def blockTimestampMs : Attestation → U64
  | .round record => record.blockTimestampMs
  | .pedigree record => record.blockTimestampMs

def CageValid : Attestation → Prop
  | .round _ => True
  | .pedigree record => isValidCage record.cageCode = true

variable [StateCbor]

def encode : Attestation → List U8
  | .round record => StateCbor.attestRecord.encode record
  | .pedigree record => StateCbor.pedigreeRecord.encode record

def Decodes (value : List U8) : Attestation → Prop
  | .round record => StateCbor.attestRecord.decode value = .ok record
  | .pedigree record => StateCbor.pedigreeRecord.decode value = .ok record

theorem decodes_encode (record : Attestation) : Decodes record.encode record := by
  cases record with
  | round record => exact StateCbor.attestRecord.decode_encode record
  | pedigree record => exact StateCbor.pedigreeRecord.decode_encode record

omit [StateCbor] in
theorem length_attest_key (jobId : Bytes 32) (roundId : U64) : (attestKey jobId roundId).length = 40 := by
  rw [attestKey, List.length_append, List.Vector.toList_length, length_be_bytes]

omit [StateCbor] in
theorem length_pedigree_key (jobId : Bytes 32) (lotId : Bytes 16) : (pedigreeKey jobId lotId).length = 52 := by
  rw [pedigreeKey, List.length_append, List.length_append, List.Vector.toList_length, List.Vector.toList_length]
  rfl

theorem eq_of_key_of_encode (a b : Attestation) (sameKey : a.key = b.key) (sameBytes : a.encode = b.encode) : a = b := by
  cases a with
  | round a =>
      cases b with
      | round b => rw [StateCbor.attestRecord.encode_injective a b sameBytes]
      | pedigree b =>
          have lengths := congrArg List.length sameKey
          rw [key, key, length_attest_key, length_pedigree_key] at lengths
          cases lengths
  | pedigree a =>
      cases b with
      | round b =>
          have lengths := congrArg List.length sameKey
          rw [key, key, length_attest_key, length_pedigree_key] at lengths
          cases lengths
      | pedigree b => rw [StateCbor.pedigreeRecord.encode_injective a b sameBytes]

end Attestation

def attestation (header : BlockHeader) (tx : TxBody) : Option Attestation :=
  match tx.call with
  | .attestRound jobId roundId modelHash dpEpsilonMilli =>
      some (.round
        { jobId, roundId, modelHash, dpEpsilonMilli
          coordinator := tx.fromAccount.id
          blockHeight := header.height
          blockTimestampMs := header.timestampMs })
  | .attestPedigree jobId lotId supplier cageCode attestationAuthority =>
      some (.pedigree
        { jobId, lotId, supplier, cageCode, attestationAuthority
          attester := tx.fromAccount.id
          blockHeight := header.height
          blockTimestampMs := header.timestampMs })
  | _ => none

theorem attestation_fields (header : BlockHeader) (tx : TxBody) (record : Attestation)
    (attests : attestation header tx = some record) :
    record.attester = tx.fromAccount.id ∧ record.blockHeight = header.height ∧
      record.blockTimestampMs = header.timestampMs := by
  rw [attestation] at attests
  split at attests
  · cases attests
    exact ⟨rfl, rfl, rfl⟩
  · cases attests
    exact ⟨rfl, rfl, rfl⟩
  · cases attests

section
variable [StateCbor]

theorem attest_write_iff (header : BlockHeader) (tx : TxBody) (key value : List U8) :
    effectWrite header tx = some (.attest, key, value) ↔
      ∃ record, attestation header tx = some record ∧ record.key = key ∧ record.encode = value := by
  rw [effectWrite, attestation]
  generalize tx.call = call
  cases call with
  | attestRound jobId roundId modelHash dpEpsilonMilli =>
      simp [Attestation.key, Attestation.encode]
  | attestPedigree jobId lotId supplier cageCode attestationAuthority =>
      simp [Attestation.key, Attestation.encode]
  | setGovernance configCbor govProof =>
      dsimp only
      split <;> simp
  | _ => simp

end

section
variable {σ : Type} [StateStore σ] [StateCbor]

def MayAttest (store : σ) (jobId : Bytes 32) (sender : AccountId) : Prop :=
  StateStore.get store .metadata (attestAuthKey jobId) = none ∨
    ∃ authority, loadAttestAuthority store jobId = some authority ∧ authority.jobId = jobId ∧
      (authority.coordinators = [] ∨ sender.id ∈ authority.coordinators)

def RegistriesEncoded (store : σ) : Prop :=
  ∀ jobId value, StateStore.get store .metadata (attestAuthKey jobId) = some value →
    ∃ authority : CoordinatorAuthority, StateCbor.coordinatorAuthority.encode authority = value ∧ authority.jobId = jobId

theorem registry_write_encoded (header : BlockHeader) (tx : TxBody) (jobId : Bytes 32) (value : List U8)
    (writes : effectWrite header tx = some (.metadata, attestAuthKey jobId, value)) :
    ∃ authority : CoordinatorAuthority, StateCbor.coordinatorAuthority.encode authority = value ∧
      authority.jobId = jobId := by
  rw [effectWrite] at writes
  generalize tx.call = call at writes
  cases call with
  | registerAttestCoordinator otherJob coordinators govProof =>
      simp only [Option.some.injEq, Prod.mk.injEq, true_and] at writes
      exact ⟨_, writes.2, attest_auth_key_inj _ _ writes.1⟩
  | upgradeCrypto targetHeight sigAlgo hashAlgo govProof =>
      simp only [Option.some.injEq, Prod.mk.injEq, true_and] at writes
      exact absurd writes.1 (attest_auth_key_ne jobId upgradeCryptoKey (by decide))
  | setGovernance configCbor govProof =>
      dsimp only at writes
      split at writes
      · cases writes
      · simp only [Option.some.injEq, Prod.mk.injEq, true_and] at writes
        exact absurd writes.1 (attest_auth_key_ne jobId governanceKey (by decide))
  | _ => cases writes

variable [HashFns] [SigFns]

omit [HashFns] [SigFns] in
theorem authorized_may_attest (idx : Nat) (store : σ) (jobId : Bytes 32) (sender : AccountId)
    (encoded : RegistriesEncoded store) (passed : attestAuthorized idx store jobId sender = .ok ()) :
    MayAttest store jobId sender := by
  cases entry : StateStore.get store .metadata (attestAuthKey jobId) with
  | none => exact .inl entry
  | some value =>
      obtain ⟨authority, rfl, ownJob⟩ := encoded jobId value entry
      have loaded : loadAttestAuthority store jobId = some authority := by
        rw [loadAttestAuthority, loadRecord, entry, Option.bind_some, StateCbor.coordinatorAuthority.decode_encode]
        rfl
      refine .inr ⟨authority, loaded, ownJob, ?_⟩
      rw [attestAuthorized, loaded] at passed
      dsimp only at passed
      rw [guard_ok] at passed
      by_cases listed : sender.id ∈ authority.coordinators
      · exact .inr listed
      · simp [listed] at passed
        exact .inl passed

theorem attest_checks (header : BlockHeader) (store : σ) (tx : TxBody) (i : Nat) (record : Attestation)
    (encoded : RegistriesEncoded store) (attests : attestation header tx = some record)
    (checks : EffectChecks store tx i) : MayAttest store record.jobId tx.fromAccount ∧ record.CageValid := by
  rw [attestation] at attests
  rw [EffectChecks] at checks
  generalize tx.call = call at attests checks
  cases call with
  | attestRound jobId roundId modelHash dpEpsilonMilli =>
      cases attests
      exact ⟨authorized_may_attest i store jobId tx.fromAccount encoded checks, trivial⟩
  | attestPedigree jobId lotId supplier cageCode attestationAuthority =>
      cases attests
      exact ⟨authorized_may_attest i store jobId tx.fromAccount encoded checks.2, checks.1⟩
  | _ => cases attests

theorem effect_keeps_registries (header : BlockHeader) (store next : σ) (tx : TxBody) (i : Nat)
    (applied : applyEffect header store (tx, i) = .ok next) (encoded : RegistriesEncoded store) :
    RegistriesEncoded next := by
  intro jobId value entry
  rw [apply_effect_ok header store next tx i applied] at entry
  by_cases same : StateStore.get (writeTo store (effectWrite header tx)) .metadata (attestAuthKey jobId) =
      StateStore.get store .metadata (attestAuthKey jobId)
  · exact encoded jobId value (same ▸ entry)
  · obtain ⟨written, writes⟩ := changed_by_write header store tx .metadata (attestAuthKey jobId) same
    rw [writes, writeTo, StateStore.get_put, if_pos ⟨rfl, rfl⟩] at entry
    obtain rfl := Option.some.inj entry
    exact registry_write_encoded header tx jobId written writes

end

section
variable [StateCbor] [HashFns] [SigFns]

theorem registries_encoded_at (run : List (Block × U128)) (accepted : AllAccepted MemState.new run) (p : Nat)
    (inside : p ≤ (runEvents run).length) : RegistriesEncoded (effectStateAt MemState.new run p) := by
  have respects : ∀ a b : MemState, SameEntries a b → RegistriesEncoded a → RegistriesEncoded b := by
    intro a b same encoded jobId value entry
    exact encoded jobId value ((same _ _ (governed_effect_key _ (.authority jobId))).trans entry)
  have initial : RegistriesEncoded MemState.new := by
    intro jobId value entry
    cases entry.symm.trans (MemState.get_new .metadata (attestAuthKey jobId))
  refine effect_state_at_invariant RegistriesEncoded respects MemState.new run accepted 0
    (respects _ _ (effect_state_at_start MemState.new run accepted) initial) p (Nat.zero_le p) inside ?_
  intro _ event _ _ _ next encoded stepped
  exact effect_keeps_registries event.block.header _ next event.tx event.index stepped encoded

def SignatureVerified (block : Block) (i : Nat) (tx : TxBody) : Prop :=
  ∃ (witness : Witness) (pk : List U8), block.body.witnesses[i]? = some witness ∧
    AccountId.fromPubkey pk = tx.fromAccount ∧
    SigFns.verify witness.sigAlgo pk witness.sig tx.signingHash.toList = .ok ()

theorem accepted_signature (run : List (Block × U128)) (accepted : AllAccepted MemState.new run) (k : Nat)
    (call : Block × U128) (atK : run[k]? = some call) (i : Nat) (tx : TxBody) (position : call.1.body.txs[i]? = some tx) :
    SignatureVerified call.1 i tx := by
  have ok := along_at applyCall _ MemState.new run k call accepted atK
  have keys : KeysFrom Set.univ (runCalls applyCall MemState.new (run.take k)) :=
    run_calls_invariant applyCall (KeysFrom Set.univ) _ MemState.new (keys_from_new Set.univ)
      fun state input kept => keys_from_block Set.univ state input.1 input.2 kept (Set.subset_univ _)
  obtain ⟨staged, _, witness, present, _, validated⟩ := accepted_staged _ call.1 call.2 ok i tx position
  have derived := (resolved_key_from Set.univ staged.idx _ tx witness staged.pubkeyBytes keys validated.key
    (fun key _ => Set.mem_univ key)).2
  exact ⟨witness, staged.pubkeyBytes, present, derived, validated.signed⟩

structure Provenance (before : MemState) (block : Block) (i : Nat) (tx : TxBody) (record : Attestation) : Prop where
  position : block.body.txs[i]? = some tx
  content : attestation block.header tx = some record
  author : record.attester = tx.fromAccount.id
  height : record.blockHeight = block.header.height
  timestamp : record.blockTimestampMs = block.header.timestampMs
  signed : SignatureVerified block i tx
  authorized : MayAttest (effectState before block i) record.jobId tx.fromAccount
  cage : record.CageValid

theorem event_provenance (run : List (Block × U128)) (accepted : AllAccepted MemState.new run) (p : Nat) (event : TxEvent)
    (found : (runEvents run)[p]? = some event) (record : Attestation)
    (attests : attestation event.block.header event.tx = some record) :
    ∃ (k : Nat) (call : Block × U128), run[k]? = some call ∧
      Provenance (runCalls applyCall MemState.new (run.take k)) call.1 event.index event.tx record := by
  have inside := (List.getElem?_eq_some_iff.mp found).1
  obtain ⟨k, call, atK, blockEq, position, stateEq⟩ := event_position MemState.new run p event found
  obtain ⟨next, stepped, _⟩ := effect_state_at_step MemState.new run accepted p event found
  obtain ⟨checks, _⟩ := (apply_effect_iff ..).mp stepped
  obtain ⟨authorized, cage⟩ := attest_checks event.block.header _ event.tx event.index record
    (registries_encoded_at run accepted p (Nat.le_of_lt inside)) attests checks
  rw [stateEq] at authorized
  rw [blockEq] at attests
  obtain ⟨author, height, timestamp⟩ := attestation_fields _ _ record attests
  exact ⟨k, call, atK, position, attests, author, height, timestamp,
    accepted_signature run accepted k call atK event.index event.tx position, authorized, cage⟩

theorem attestation_provenance (run : List (Block × U128)) (accepted : AllAccepted MemState.new run) (key value : List U8)
    (stored : StateStore.get (runCalls applyCall MemState.new run) .attest key = some value) :
    ∃ record : Attestation, record.Decodes value ∧ record.key = key ∧
      ∃ (k : Nat) (call : Block × U128) (i : Nat) (tx : TxBody), run[k]? = some call ∧
        Provenance (runCalls applyCall MemState.new (run.take k)) call.1 i tx record := by
  rw [← effect_state_at_end] at stored
  have origin := entry_origin MemState.new run accepted .attest key (.inl rfl) _ (Nat.le_refl _)
  rw [stored] at origin
  rcases origin with untouched | ⟨p, event, written, _, found, writes, held⟩
  · cases untouched.trans (MemState.get_new .attest key)
  · obtain rfl := Option.some.inj held
    obtain ⟨record, attests, keyEq, rfl⟩ := (attest_write_iff event.block.header event.tx key value).mp writes
    obtain ⟨k, call, atK, provenance⟩ := event_provenance run accepted p event found record attests
    exact ⟨record, record.decodes_encode, keyEq, k, call, event.index, event.tx, atK, provenance⟩

theorem attested_after (start : MemState) (run : List (Block × U128)) (accepted : AllAccepted start run) (p : Nat)
    (event : TxEvent) (found : (runEvents run)[p]? = some event) (record : Attestation)
    (attests : attestation event.block.header event.tx = some record) :
    StateStore.get (effectStateAt start run (p + 1)) .attest record.key = some record.encode := by
  obtain ⟨next, stepped, seen⟩ := effect_state_at_step start run accepted p event found
  have writes := (attest_write_iff event.block.header event.tx record.key record.encode).mpr ⟨record, attests, rfl, rfl⟩
  rw [← seen .attest record.key (.inl rfl), apply_effect_ok _ _ next _ _ stepped, writes, writeTo, StateStore.get_put,
    if_pos ⟨rfl, rfl⟩]

def AttestationsKept (start : MemState) (run : List (Block × U128)) : Prop :=
  ∀ (p q : Nat) (key value : List U8), p ≤ q → q ≤ (runEvents run).length →
    StateStore.get (effectStateAt start run p) .attest key = some value →
    StateStore.get (effectStateAt start run q) .attest key = some value

def AttestedOnce (start : MemState) (run : List (Block × U128)) : Prop :=
  ∀ (q : Nat) (later : TxEvent) (record : Attestation), (runEvents run)[q]? = some later →
    attestation later.block.header later.tx = some record →
      (∀ value, StateStore.get start .attest record.key = some value → value = record.encode) ∧
        ∀ (p : Nat) (earlier : TxEvent) (first : Attestation), p < q → (runEvents run)[p]? = some earlier →
          attestation earlier.block.header earlier.tx = some first → first.key = record.key → first = record

theorem attested_once_keeps (start : MemState) (run : List (Block × U128)) (accepted : AllAccepted start run)
    (once : AttestedOnce start run) : AttestationsKept start run := by
  intro p q key value ordered inside stored
  refine effect_state_at_invariant (fun state => StateStore.get state .attest key = some value)
    (fun a b same held => (same .attest key (.inl rfl)).symm.trans held) start run accepted p stored q ordered inside ?_
  intro r event after _ found next held stepped
  rw [apply_effect_ok _ _ next _ _ stepped]
  by_cases same : StateStore.get (writeTo (effectStateAt start run r) (effectWrite event.block.header event.tx)) .attest key =
      StateStore.get (effectStateAt start run r) .attest key
  · exact same.trans held
  · obtain ⟨written, writes⟩ := changed_by_write _ _ _ .attest key same
    obtain ⟨record, attests, rfl, rfl⟩ := (attest_write_iff event.block.header event.tx key written).mp writes
    have again : value = record.encode := by
      rcases entry_origin start run accepted .attest record.key (.inl rfl) p (ordered.trans inside) with
        untouched | ⟨first, earlier, value', less, atFirst, wrote, read⟩
      · exact (once r event record found attests).1 value (untouched.symm.trans stored)
      · obtain rfl := Option.some.inj (stored.symm.trans read)
        obtain ⟨old, attested, keyEq, rfl⟩ := (attest_write_iff _ _ _ _).mp wrote
        rw [(once r event record found attests).2 first earlier old (by omega) atFirst attested keyEq]
    rw [writes, writeTo, StateStore.get_put, if_pos ⟨rfl, rfl⟩, again]

theorem attestations_kept_iff (start : MemState) (run : List (Block × U128)) (accepted : AllAccepted start run) :
    AttestationsKept start run ↔ AttestedOnce start run := by
  constructor
  · intro kept q later record found attests
    have inside := (List.getElem?_eq_some_iff.mp found).1
    have written := attested_after start run accepted q later found record attests
    constructor
    · intro value stored
      rw [effect_state_at_start start run accepted .attest record.key (.inl rfl)] at stored
      have still := kept 0 (q + 1) record.key value (Nat.zero_le _) inside stored
      exact Option.some.inj (still.symm.trans written)
    · intro p earlier first less atP attested sameKey
      have before := attested_after start run accepted p earlier atP first attested
      have still := kept (p + 1) (q + 1) first.key first.encode (by omega) inside before
      rw [sameKey] at still
      exact Attestation.eq_of_key_of_encode first record sameKey (Option.some.inj (still.symm.trans written))
  · exact attested_once_keeps start run accepted

end

end PyGrove.State

namespace PyGrove.Sample

open Words PyGrove.Core Crypto State

def attest (roundId : U64) (model : U8) : TxCall := .attestRound (.replicate 32 4) roundId (.replicate 32 model) 1500

def roundRecord (height : U64) (roundId : U64) (model : U8) : AttestRecord :=
  ⟨.replicate 32 4, roundId, .replicate 32 model, 1500, (AccountId.fromPubkey (List.replicate 32 7)).id, height, 1000 * height⟩

end PyGrove.Sample

namespace PyGrove.State

open Words Steps PyGrove.Core Crypto Sample

def registeredRun : List (Block × U128) :=
  [oneTx 1 0 (List.replicate 32 7) (register [.fromPubkey (List.replicate 32 7)]),
    oneTx 2 1 (List.replicate 32 7) (attest 1 6)]

theorem registered_round_provenance :
    ∃ record : Attestation, record.Decodes (Attestation.round (roundRecord 2 1 6)).encode ∧
      record.key = attestKey (.replicate 32 4) 1 ∧
      ∃ (k : Nat) (call : Block × U128) (i : Nat) (tx : TxBody), registeredRun[k]? = some call ∧
        Provenance (runCalls applyCall MemState.new (registeredRun.take k)) call.1 i tx record :=
  attestation_provenance registeredRun (by unfold AllAccepted; decide +kernel) (attestKey (.replicate 32 4) 1)
    (Attestation.round (roundRecord 2 1 6)).encode (by decide +kernel)

def roundsRun (second : U64) : List (Block × U128) :=
  [oneTx 1 0 (List.replicate 32 7) (attest 1 6), oneTx 2 1 (List.replicate 32 7) (attest second 8)]

theorem different_rounds_kept :
    AttestationsKept MemState.new (roundsRun 2) ↔ AttestedOnce MemState.new (roundsRun 2) :=
  attestations_kept_iff MemState.new (roundsRun 2) (by unfold AllAccepted; decide +kernel)

theorem second_attestation_overwrites :
    AllAccepted MemState.new (roundsRun 1) ∧
      (StateStore.get (runCalls applyCall MemState.new ((roundsRun 1).take 1)) .attest (attestKey (.replicate 32 4) 1) =
        some (Attestation.round (roundRecord 1 1 6)).encode) ∧
      (StateStore.get (runCalls applyCall MemState.new (roundsRun 1)) .attest (attestKey (.replicate 32 4) 1) =
        some (Attestation.round (roundRecord 2 1 8)).encode) ∧
      ¬ AttestationsKept MemState.new (roundsRun 1) := by
  refine ⟨by unfold AllAccepted; decide +kernel, by decide +kernel, by decide +kernel, ?_⟩
  intro kept
  have still := kept 1 2 (attestKey (.replicate 32 4) 1) (Attestation.round (roundRecord 1 1 6)).encode
    (by decide) (by decide) (by decide +kernel)
  exact absurd still (by decide +kernel)

end PyGrove.State
