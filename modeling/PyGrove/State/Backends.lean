import PyGrove.State.Lockstep
import PyGrove.State.Migration

set_option autoImplicit false

namespace PyGrove.State

open Words Steps PyGrove.Core Crypto

inductive BackendCall where
  | apply (block : Block) (reward : U128)
  | store (call : StoreCall)

inductive BackendReply where
  | applied (result : Except ApplyError ApplyOutput)
  | store (reply : StoreReply)

section
variable {δ : Type} [RocksDb δ] [HashFns] [SigFns] [StateCbor]

def rocksBackend (state : RocksState δ) : BackendCall → RocksState δ × BackendReply
  | .apply block reward =>
      let (next, result) := applyBlock state block reward
      (next, .applied result)
  | .store call =>
      let (next, reply) := rocksCall state call
      (next, .store reply)

def memBackend (state : MemState) : BackendCall → MemState × BackendReply
  | .apply block reward =>
      let (next, result) := applyBlock state block reward
      (next, .applied result)
  | .store call =>
      let (next, reply) := memCall state call
      (next, .store reply)

theorem applied_root {σ : Type} [StateStore σ] (store : σ) (block : Block) (reward : U128) (out : ApplyOutput)
    (applied : (applyBlock store block reward).2 = .ok out) :
    out.stateRoot = StateStore.root (applyBlock store block reward).1 := by
  have outcome := apply_block_outcome store block reward
  generalize applyBlock store block reward = result at outcome applied ⊢
  cases outcome with
  | accepted fees minted staged spent affected paid valid spend effects coinbase =>
      cases applied
      rfl
  | _ => cases applied

omit [SigFns] in
theorem mirrors_lockstep : Lockstep (Mirrors : RocksState δ → MemState → Prop) where
  elsewhere := fun _ _ mirrors sub key _ => mirrors sub key
  registries := by
    intro rocks mem mirrors jobId
    have same : loadAttestAuthority rocks jobId = loadAttestAuthority mem jobId :=
      congrArg (fun bytes => bytes.bind fun bytes => (StateCbor.coordinatorAuthority.decode bytes).toOption)
        (mirrors .metadata (attestAuthKey jobId))
    rw [same]
    exact same_registry_refl _
  put := fun rocks mem mirrors sub key value => (call_mirrors rocks mem (.put sub key value) mirrors).2

theorem backend_mirrors (rocks : RocksState δ) (mem : MemState) (call : BackendCall) (mirrors : Mirrors rocks mem) :
    (rocksBackend rocks call).2 = (memBackend mem call).2 ∧ Mirrors (rocksBackend rocks call).1 (memBackend mem call).1 := by
  cases call with
  | store call =>
      obtain ⟨reply, next⟩ := call_mirrors rocks mem call mirrors
      exact ⟨congrArg BackendReply.store reply, next⟩
  | apply block reward =>
      obtain ⟨alike, next⟩ := mirrors_lockstep.block_alike rocks mem mirrors block reward
      have rootA := applied_root rocks block reward
      have rootB := applied_root mem block reward
      rw [rocksBackend, memBackend]
      generalize applyBlock rocks block reward = appliedA at alike next rootA
      generalize applyBlock mem block reward = appliedB at alike next rootB
      obtain ⟨stateA, resultA⟩ := appliedA
      obtain ⟨stateB, resultB⟩ := appliedB
      refine ⟨congrArg BackendReply.applied ?_, next⟩
      cases alike with
      | error e => rfl
      | ok out out' same =>
          have root : out.stateRoot = out'.stateRoot :=
            (rootA out rfl).trans ((root_mirrors stateA stateB next).trans (rootB out' rfl).symm)
          rw [same, ← root]

theorem migrated_chain_agrees_iff (state : RocksState δ) (src : MemState) :
    (∀ calls, replies rocksBackend (state.importFrom src) calls = replies memBackend src calls) ↔
      ∀ sub key, src.get sub key = none → state.get sub key = none := by
  constructor
  · intro agree sub key absent
    have read := agree [.store (.get sub key)]
    have same : (state.importFrom src).get sub key = src.get sub key := by
      simpa only [replies, rocksBackend, memBackend, rocksCall, memCall, List.cons.injEq, BackendReply.store.injEq,
        StoreReply.value.injEq, and_true] using read
    rwa [RocksState.get_import, absent, Option.none_or] at same
  · intro covered calls
    exact replies_simulated rocksBackend memBackend Mirrors backend_mirrors (state.importFrom src) src
      (import_preserves_of_covered state src covered).2 calls

end

end PyGrove.State
