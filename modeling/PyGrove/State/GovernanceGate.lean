import PyGrove.State.EffectRuns

set_option autoImplicit false

namespace PyGrove.State

open Words Steps Events PyGrove.Core Crypto

section
variable [StateCbor] [HashFns]

structure GovernanceAction where
  key : List U8
  govProof : List U8
  payload : Bytes 32

def governanceAction (tx : TxBody) : Option GovernanceAction :=
  match tx.call with
  | .upgradeCrypto targetHeight sigAlgo hashAlgo govProof =>
      some ⟨upgradeCryptoKey, govProof, upgradeCryptoGovPayload targetHeight sigAlgo hashAlgo⟩
  | .registerAttestCoordinator jobId coordinators govProof =>
      some ⟨attestAuthKey jobId, govProof, registerAttestGovPayload jobId coordinators⟩
  | .setGovernance configCbor govProof =>
      match StateCbor.governanceConfig.decode configCbor with
      | .error _ => none
      | .ok newCfg => some ⟨governanceKey, govProof, setGovernanceGovPayload newCfg⟩
  | _ => none

inductive GovernedKey : List U8 → Prop where
  | governance : GovernedKey governanceKey
  | upgradeCrypto : GovernedKey upgradeCryptoKey
  | authority (jobId : Bytes 32) : GovernedKey (attestAuthKey jobId)

omit [StateCbor] [HashFns] in
theorem governed_effect_key (key : List U8) (governed : GovernedKey key) : EffectKey .metadata key := by
  refine .inr ⟨rfl, ?_⟩
  cases governed with
  | governance => decide
  | upgradeCrypto => decide
  | authority jobId => exact (attest_auth_key_ne jobId activeCryptoKey (by decide)).symm

variable [SigFns]

def PassesGate (cfg : GovernanceConfig) (action : GovernanceAction) : Prop :=
  ∃ proof, StateCbor.governanceProof.decode action.govProof = .ok proof ∧
    verifyGovernanceProof cfg proof action.payload = .ok ()

end

section
variable {σ : Type} [StateStore σ] [StateCbor] [HashFns] [SigFns]

omit [HashFns] in
theorem governance_gate_ok (idx : Nat) (store : σ) (govProof : List U8) (payload : Bytes 32) (key : List U8)
    (cfg : GovernanceConfig) (inForce : loadGovernance store = some cfg)
    (passed : governanceGate idx store govProof payload = .ok ()) : PassesGate cfg ⟨key, govProof, payload⟩ := by
  rw [governanceGate, inForce] at passed
  dsimp only at passed
  split at passed
  · cases passed
  · split at passed
    · cases passed
    · rename_i proof decoded
      split at passed
      · cases passed
      · exact ⟨proof, decoded, ‹_›⟩

theorem checks_pass_gate (store : σ) (tx : TxBody) (i : Nat) (action : GovernanceAction) (cfg : GovernanceConfig)
    (inForce : loadGovernance store = some cfg) (checks : EffectChecks store tx i)
    (acts : governanceAction tx = some action) : PassesGate cfg action := by
  rw [EffectChecks] at checks
  rw [governanceAction] at acts
  generalize tx.call = call at checks acts
  cases call with
  | upgradeCrypto targetHeight sigAlgo hashAlgo govProof =>
      cases acts
      exact governance_gate_ok i store _ _ _ cfg inForce checks.2.2
  | registerAttestCoordinator jobId coordinators govProof =>
      cases acts
      exact governance_gate_ok i store _ _ _ cfg inForce checks
  | setGovernance configCbor govProof =>
      obtain ⟨newCfg, decoded, _, passed⟩ := checks
      dsimp only at acts
      rw [decoded] at acts
      cases acts
      exact governance_gate_ok i store _ _ _ cfg inForce passed
  | _ => cases acts

omit [SigFns] in
theorem metadata_write_acts (header : BlockHeader) (tx : TxBody) (key value : List U8)
    (writes : effectWrite header tx = some (.metadata, key, value)) :
    ∃ action, governanceAction tx = some action ∧ action.key = key := by
  rw [effectWrite] at writes
  rw [governanceAction]
  generalize tx.call = call at writes ⊢
  cases call with
  | upgradeCrypto targetHeight sigAlgo hashAlgo govProof =>
      cases writes
      exact ⟨_, rfl, rfl⟩
  | registerAttestCoordinator jobId coordinators govProof =>
      cases writes
      exact ⟨_, rfl, rfl⟩
  | setGovernance configCbor govProof =>
      dsimp only at writes ⊢
      cases decoded : StateCbor.governanceConfig.decode configCbor with
      | error e =>
          rw [decoded] at writes
          cases writes
      | ok newCfg =>
          rw [decoded] at writes
          cases writes
          exact ⟨_, rfl, rfl⟩
  | _ => cases writes

theorem change_passes_gate (header : BlockHeader) (store next : σ) (tx : TxBody) (i : Nat) (key : List U8)
    (cfg : GovernanceConfig) (inForce : loadGovernance store = some cfg)
    (applied : applyEffect header store (tx, i) = .ok next)
    (changed : StateStore.get next .metadata key ≠ StateStore.get store .metadata key) :
    ∃ action, governanceAction tx = some action ∧ action.key = key ∧ PassesGate cfg action := by
  obtain ⟨checks, rfl⟩ := (apply_effect_iff header store next tx i).mp applied
  obtain ⟨value, writes⟩ := changed_by_write header store tx .metadata key changed
  obtain ⟨action, acts, keyEq⟩ := metadata_write_acts header tx key value writes
  exact ⟨action, acts, keyEq, checks_pass_gate store tx i action cfg inForce checks acts⟩

def ConfigInForce (store : σ) : Prop := ∃ cfg, loadGovernance store = some cfg ∧ cfg.validate = .ok ()

omit [HashFns] [SigFns] in
theorem config_in_force_same (a b : σ) (same : StateStore.get a .metadata governanceKey = StateStore.get b .metadata governanceKey)
    (inForce : ConfigInForce a) : ConfigInForce b := by
  obtain ⟨cfg, loaded, valid⟩ := inForce
  exact ⟨cfg, by rw [loadGovernance, loadRecord, ← same]; exact loaded, valid⟩

omit [HashFns] [SigFns] in
theorem config_in_force_entries (a b : σ) (same : SameEntries a b) (inForce : ConfigInForce a) : ConfigInForce b :=
  config_in_force_same a b (same _ _ (governed_effect_key _ .governance)) inForce

theorem effect_keeps_config (header : BlockHeader) (store next : σ) (tx : TxBody) (i : Nat)
    (applied : applyEffect header store (tx, i) = .ok next) (inForce : ConfigInForce store) : ConfigInForce next := by
  obtain ⟨checks, rfl⟩ := (apply_effect_iff header store next tx i).mp applied
  by_cases same : StateStore.get (writeTo store (effectWrite header tx)) .metadata governanceKey =
      StateStore.get store .metadata governanceKey
  · exact config_in_force_same _ _ same.symm inForce
  · obtain ⟨value, writes⟩ := changed_by_write header store tx .metadata governanceKey same
    rw [writes, writeTo]
    rw [effectWrite] at writes
    rw [EffectChecks] at checks
    generalize tx.call = call at writes checks
    cases call with
    | setGovernance configCbor govProof =>
        obtain ⟨newCfg, decoded, valid, _⟩ := checks
        dsimp only at writes
        rw [decoded] at writes
        cases writes
        exact ⟨newCfg, load_record_save_self StateCbor.governanceConfig store .metadata governanceKey newCfg, valid⟩
    | registerAttestCoordinator jobId coordinators govProof =>
        simp only [Option.some.injEq, Prod.mk.injEq, true_and] at writes
        exact absurd writes.1.symm (attest_auth_key_ne jobId governanceKey (by decide))
    | upgradeCrypto targetHeight sigAlgo hashAlgo govProof =>
        simp only [Option.some.injEq, Prod.mk.injEq, true_and] at writes
        exact absurd writes.1 (by decide)
    | _ => cases writes

structure ChangesGated (store final : σ) (block : Block) (key : List U8) : Prop where
  enter : StateStore.get (effectState store block 0) .metadata key = StateStore.get store .metadata key
  change : ∀ (i : Nat) (tx : TxBody), block.body.txs[i]? = some tx →
    StateStore.get (effectState store block (i + 1)) .metadata key ≠
      StateStore.get (effectState store block i) .metadata key →
    ∃ cfg action, loadGovernance (effectState store block i) = some cfg ∧ governanceAction tx = some action ∧
      action.key = key ∧ PassesGate cfg action
  leave : StateStore.get final .metadata key =
    StateStore.get (effectState store block block.body.txs.length) .metadata key

theorem block_config_in_force (store : σ) (block : Block) (reward : U128)
    (accepted : (applyBlock store block reward).2.isOk = true) (inForce : ConfigInForce store) (i : Nat)
    (inside : i ≤ block.body.txs.length) : ConfigInForce (effectState store block i) := by
  obtain ⟨enter, step, _⟩ := accepted_block_effects store block reward accepted
  induction i with
  | zero => exact config_in_force_entries _ _ enter inForce
  | succ i ih =>
      have found : block.body.txs[i]? = some block.body.txs[i] := List.getElem?_eq_getElem inside
      exact effect_keeps_config block.header _ _ _ i (step i _ found) (ih (Nat.le_of_succ_le inside))

theorem block_changes_gated (store : σ) (block : Block) (reward : U128)
    (accepted : (applyBlock store block reward).2.isOk = true) (inForce : ConfigInForce store) (key : List U8)
    (governed : GovernedKey key) : ChangesGated store (applyBlock store block reward).1 block key := by
  obtain ⟨enter, step, leave⟩ := accepted_block_effects store block reward accepted
  have entry := governed_effect_key key governed
  refine ⟨(enter _ _ entry).symm, ?_, (leave _ _ entry).symm⟩
  intro i tx found changed
  have inside := (List.getElem?_eq_some_iff.mp found).1
  obtain ⟨cfg, loaded, _⟩ := block_config_in_force store block reward accepted inForce i (Nat.le_of_lt inside)
  obtain ⟨action, acts, keyEq, passes⟩ := change_passes_gate block.header _ _ tx i key cfg loaded (step i tx found) changed
  exact ⟨cfg, action, loaded, acts, keyEq, passes⟩

end

section
variable [StateCbor] [HashFns] [SigFns]

theorem governance_gate_run (start : MemState) (run : List (Block × U128)) (accepted : AllAccepted start run)
    (installed : ConfigInForce start) :
    Along applyCall (fun state call =>
      (∀ i ≤ call.1.body.txs.length, ConfigInForce (effectState state call.1 i)) ∧
        ConfigInForce (applyCall state call).1 ∧
        ∀ key, GovernedKey key → ChangesGated state (applyCall state call).1 call.1 key) start run := by
  induction run generalizing start with
  | nil => trivial
  | cons call tail ih =>
      obtain ⟨here, later⟩ := accepted
      have throughout := block_config_in_force start call.1 call.2 here installed
      obtain ⟨_, _, leave⟩ := accepted_block_effects start call.1 call.2 here
      have after : ConfigInForce (applyCall start call).1 :=
        config_in_force_entries _ _ leave (throughout _ (Nat.le_refl _))
      exact ⟨⟨throughout, after, block_changes_gated start call.1 call.2 here installed⟩, ih _ later after⟩

theorem config_in_force_at (start : MemState) (run : List (Block × U128)) (accepted : AllAccepted start run)
    (installed : ConfigInForce start) (p : Nat) (inside : p ≤ (runEvents run).length) :
    ConfigInForce (effectStateAt start run p) := by
  have initial := config_in_force_entries _ _ (effect_state_at_start start run accepted) installed
  refine effect_state_at_invariant ConfigInForce config_in_force_entries start run accepted 0 initial p (Nat.zero_le p)
    inside ?_
  intro _ event _ _ _ next inForce stepped
  exact effect_keeps_config event.block.header _ next event.tx event.index stepped inForce

theorem event_passes_gate (start : MemState) (run : List (Block × U128)) (accepted : AllAccepted start run)
    (installed : ConfigInForce start) (p : Nat) (event : TxEvent) (found : (runEvents run)[p]? = some event)
    (action : GovernanceAction) (acts : governanceAction event.tx = some action) :
    ∃ cfg, loadGovernance (effectStateAt start run p) = some cfg ∧ PassesGate cfg action := by
  have inside := (List.getElem?_eq_some_iff.mp found).1
  obtain ⟨cfg, loaded, _⟩ := config_in_force_at start run accepted installed p (Nat.le_of_lt inside)
  obtain ⟨next, stepped, _⟩ := effect_state_at_step start run accepted p event found
  obtain ⟨checks, _⟩ := (apply_effect_iff ..).mp stepped
  exact ⟨cfg, loaded, checks_pass_gate _ event.tx event.index action cfg loaded checks acts⟩

end

end PyGrove.State

namespace PyGrove.Sample

open Words PyGrove.Core Crypto State

def memberKey : List U8 := List.replicate 32 5

def committee (epoch : U64) : GovernanceConfig := ⟨epoch, 1, [⟨.replicate 32 1, 3, memberKey⟩]⟩

def governed : MemState := saveRecord StateCbor.governanceConfig MemState.new .metadata governanceKey (committee 1)

def approve (payload : Bytes 32) : List U8 :=
  StateCbor.governanceProof.encode ⟨[⟨.replicate 32 1, sign 3 memberKey payload.toList⟩]⟩

def register (coordinators : List AccountId) : TxCall :=
  .registerAttestCoordinator (.replicate 32 4) coordinators
    (approve (registerAttestGovPayload (.replicate 32 4) coordinators))

def rotate (epoch : U64) : TxCall :=
  .setGovernance (StateCbor.governanceConfig.encode (committee epoch)) (approve (setGovernanceGovPayload (committee epoch)))

def oneTx (height : U64) (nonce : U64) (key : List U8) (call : TxCall) : Block × U128 :=
  (block (header height (.replicate 32 0) (1000 * height) 0) [signedTx nonce call 0 3 key (.inline key)], 0)

end PyGrove.Sample

namespace PyGrove.State

open Words Steps PyGrove.Core Crypto Sample

def governedRun : List (Block × U128) :=
  [oneTx 1 0 (List.replicate 32 7) (register [.fromPubkey (List.replicate 32 7)]),
    oneTx 2 1 (List.replicate 32 7) (rotate 2)]

theorem governed_config_in_force : ConfigInForce governed :=
  ⟨committee 1, load_record_save_self StateCbor.governanceConfig MemState.new .metadata governanceKey (committee 1),
    by decide⟩

theorem governed_run_gated :
    Along applyCall (fun state call =>
      (∀ i ≤ call.1.body.txs.length, ConfigInForce (effectState state call.1 i)) ∧
        ConfigInForce (applyCall state call).1 ∧
        ∀ key, GovernedKey key → ChangesGated state (applyCall state call).1 call.1 key) governed governedRun :=
  governance_gate_run governed governedRun (by unfold AllAccepted; decide +kernel) governed_config_in_force

end PyGrove.State
