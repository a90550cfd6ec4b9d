import PyGrove.Consensus.Emission
import PyGrove.State.Governance

set_option autoImplicit false

namespace PyGrove.Node

open Words PyGrove.Core Crypto PyGrove.Consensus PyGrove.State

-- hex::decode with the text of its error.
class HexFns where
  decode : String → Except String (List U8)

structure GenesisCommitteeMember where
  signerIdHex : String
  sigAlgo : U8
  pubkeyHex : String

structure Genesis where
  genesisTimeMs : U64
  initialBits : U32
  targetBlockTimeMs : U64
  secondsPerHalving : U64 := 210000 * 600
  initialRewardSat : U64
  asertTauMs : U64 := 2 * 24 * 60 * 60 * 1000
  bootstrapAsertTauMs : U64 := 60 * 60 * 1000
  bootstrapHeight : U64 := 2016
  bootstrapRewardPct : U32 := 50
  maxRewardPctChangePerBlock : U32 := 25
  genesisCommittee : List GenesisCommitteeMember := []
  genesisCommitteeThreshold : U32 := 0
  genesisCommitteeEpoch : U64 := 0

def Genesis.emissionParams (g : Genesis) : EmissionParams where
  initialRewardSat := g.initialRewardSat.setWidth 128
  secondsPerHalving := g.secondsPerHalving
  targetBlockTimeMs := g.targetBlockTimeMs
  supplyCapSat := 21000000 * 100000000
  maxRewardPctChangePerBlock := g.maxRewardPctChangePerBlock
  bootstrapHeight := g.bootstrapHeight
  bootstrapRewardPct := g.bootstrapRewardPct

def Genesis.shipped : Genesis where
  genesisTimeMs := 1778716820000
  initialBits := 0x1F00FFFF
  targetBlockTimeMs := 600000
  secondsPerHalving := 126000000
  initialRewardSat := 5000000000
  asertTauMs := 172800000
  bootstrapAsertTauMs := 3600000
  bootstrapHeight := 2016
  bootstrapRewardPct := 50
  maxRewardPctChangePerBlock := 25

theorem shipped_emission_params : Genesis.shipped.emissionParams = .bitcoinLike := by decide

section
variable [HexFns]

def committeeSigner (i : Nat) (m : GenesisCommitteeMember) : Except String GovernanceSigner :=
  match HexFns.decode m.signerIdHex with
  | .error e => .error s!"genesis_committee[{i}].signer_id_hex: {e}"
  | .ok signerId =>
      if sized : signerId.length = 32 then
        match HexFns.decode m.pubkeyHex with
        | .error e => .error s!"genesis_committee[{i}].pubkey_hex: {e}"
        | .ok pubkey =>
            match sizes m.sigAlgo with
            | none => .ok { signerId := ⟨signerId, sized⟩, sigAlgo := m.sigAlgo, pubkey }
            | some (expectedPkLen, _) =>
                if pubkey.length ≠ expectedPkLen then
                  .error s!"genesis_committee[{i}].pubkey_hex: algo={m.sigAlgo.toNat} expects {expectedPkLen} bytes, got {pubkey.length}"
                else .ok { signerId := ⟨signerId, sized⟩, sigAlgo := m.sigAlgo, pubkey }
      else .error s!"genesis_committee[{i}].signer_id_hex: expected 32 bytes, got {signerId.length}"

def committeeSigners : List (GenesisCommitteeMember × Nat) → Except String (List GovernanceSigner)
  | [] => .ok []
  | (m, i) :: tail =>
      match committeeSigner i m with
      | .error e => .error e
      | .ok signer =>
          match committeeSigners tail with
          | .error e => .error e
          | .ok signers => .ok (signer :: signers)

-- A threshold left out means all of the signers.
def Genesis.governanceConfig (g : Genesis) : Except String GovernanceConfig :=
  match committeeSigners g.genesisCommittee.zipIdx with
  | .error e => .error e
  | .ok signers =>
      let cfg : GovernanceConfig :=
        { epoch := g.genesisCommitteeEpoch
          threshold :=
            if g.genesisCommitteeThreshold = 0 then BitVec.ofNat 32 signers.length else g.genesisCommitteeThreshold
          signers }
      match cfg.validate with
      | .error e => .error s!"genesis_committee: {e}"
      | .ok () => .ok cfg

theorem governance_config_valid (g : Genesis) (cfg : GovernanceConfig) (made : g.governanceConfig = .ok cfg) :
    cfg.validate = .ok () := by
  simp only [Genesis.governanceConfig] at made
  cases signers : committeeSigners g.genesisCommittee.zipIdx with
  | error e =>
      rw [signers] at made
      cases made
  | ok all =>
      rw [signers] at made
      dsimp only at made
      split at made
      · cases made
      · rename_i valid
        cases made
        exact valid

variable [StateCbor]

def installGenesisGovernance (mem : MemState) (g : Genesis) : Except String MemState :=
  match g.governanceConfig with
  | .error e => .error e
  | .ok cfg => .ok (mem.put .metadata governanceKey (StateCbor.governanceConfig.encode cfg))

def Genesis.initialState (g : Genesis) : Except String MemState :=
  if g.genesisCommittee.isEmpty then .ok .new else installGenesisGovernance .new g

theorem initial_governance [HashFns] (g : Genesis) (mem : MemState) (started : g.initialState = .ok mem) :
    if g.genesisCommittee.isEmpty then loadGovernance mem = none
    else ∃ cfg, loadGovernance mem = some cfg ∧ cfg.validate = .ok () := by
  simp only [Genesis.initialState] at started
  by_cases bootstrap : g.genesisCommittee.isEmpty
  · rw [if_pos bootstrap] at started ⊢
    cases started
    have absent : StateStore.get MemState.new .metadata governanceKey = none := MemState.get_new ..
    rw [loadGovernance, loadRecord, absent]
    rfl
  · rw [if_neg bootstrap] at started ⊢
    simp only [installGenesisGovernance] at started
    cases made : g.governanceConfig with
    | error e =>
        rw [made] at started
        cases started
    | ok cfg =>
        rw [made] at started
        cases started
        exact ⟨cfg, load_record_save_self StateCbor.governanceConfig MemState.new .metadata governanceKey cfg,
          governance_config_valid g cfg made⟩

theorem initial_elsewhere [HashFns] (g : Genesis) (mem : MemState) (started : g.initialState = .ok mem) (sub : Subtree)
    (key : List U8) (apart : ¬ (sub = .metadata ∧ key = governanceKey)) : StateStore.get mem sub key = none := by
  have nothing : StateStore.get MemState.new sub key = none := MemState.get_new ..
  simp only [Genesis.initialState] at started
  by_cases bootstrap : g.genesisCommittee.isEmpty
  · rw [if_pos bootstrap] at started
    cases started
    exact nothing
  · rw [if_neg bootstrap, installGenesisGovernance] at started
    cases made : g.governanceConfig with
    | error e =>
        rw [made] at started
        cases started
    | ok cfg =>
        rw [made] at started
        cases started
        refine (MemState.get_put ..).trans ?_
        rw [if_neg fun same => apart ⟨same.1.symm, same.2.symm⟩]
        exact nothing

theorem initial_accounts [HashFns] (g : Genesis) (mem : MemState) (started : g.initialState = .ok mem) (id : AccountId) :
    Accounts.loadOrDefault mem id = Account.empty := by
  rw [Accounts.loadOrDefault, Accounts.load, loadRecord, initial_elsewhere g mem started _ _ (by simp)]
  rfl

end

end PyGrove.Node
