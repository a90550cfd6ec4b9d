import PyGrove.Node.Template

set_option autoImplicit false

namespace PyGrove.Node

open Words PyGrove.Core Crypto PyGrove.Consensus PyGrove.State

-- Gates 2 and 3 of try_apply_block.
structure TimestampPasses [HashFns] (config : NodeConfig) (tip : Option Block) (nowMs timestampMs : U64) : Prop where
  monotonic : ¬ timestampMs < (tipView config tip).parentTs
  skew : ¬ nowMs + futureTimeToleranceMs < timestampMs

structure HonestPasses [HashFns] (config : MinerConfig) (node : NodeState) (nowMs : U64) : Prop where
  template : TimestampPasses config.toNodeConfig node.store.tip nowMs (template config node nowMs).header.timestampMs
  selfMiner : ∀ (gateMs : U64) (hdr : BlockHeader) (target : Bytes 32) (body : BlockBody),
    selfMinerTurn config node gateMs nowMs = .mining hdr target body →
      TimestampPasses config.toNodeConfig node.store.tip nowMs hdr.timestampMs

section
variable [HashFns]

theorem template_stamps_now (config : MinerConfig) (node : NodeState) (nowMs nonce : U64) :
    { (template config node nowMs).header with nonce }.timestampMs = nowMs := rfl

theorem self_miner_stamps_now (config : MinerConfig) (node : NodeState) (gateMs nowMs : U64) (hdr : BlockHeader)
    (target : Bytes 32) (body : BlockBody) (turn : selfMinerTurn config node gateMs nowMs = .mining hdr target body) :
    hdr.timestampMs = nowMs := by
  simp only [selfMinerTurn] at turn
  split at turn
  · cases turn
  · split at turn
    · cases turn
    · split at turn
      · cases turn
      · cases turn
        rfl

theorem honest_passes_now (config : MinerConfig) (node : NodeState) (nowMs : U64) :
    HonestPasses config node nowMs ↔ TimestampPasses config.toNodeConfig node.store.tip nowMs nowMs := by
  constructor
  · exact fun passes => passes.template
  · intro passes
    refine ⟨passes, fun gateMs hdr target body turn => ?_⟩
    rw [self_miner_stamps_now config node gateMs nowMs hdr target body turn]
    exact passes

omit [HashFns] in
theorem clock_within_tolerance (nowMs : U64) :
    ¬ nowMs + futureTimeToleranceMs < nowMs ↔ nowMs.toNat + futureTimeToleranceMs.toNat < 2 ^ 64 := by
  have bound := nowMs.isLt
  have hours : futureTimeToleranceMs.toNat = 7200000 := by decide
  rw [BitVec.lt_def, BitVec.toNat_add]
  omega

theorem tip_passes_iff (config : NodeConfig) (tip : Block) (nowMs : U64) :
    TimestampPasses config (some tip) nowMs nowMs ↔
      tip.header.timestampMs.toNat ≤ nowMs.toNat ∧ nowMs.toNat + futureTimeToleranceMs.toNat < 2 ^ 64 := by
  rw [← clock_within_tolerance, ← Nat.not_lt, ← BitVec.lt_def]
  exact ⟨fun passes => ⟨passes.monotonic, passes.skew⟩, fun both => ⟨both.1, both.2⟩⟩

variable [SigFns] [StateCbor]

theorem accepted_tip (config : NodeConfig) (node : NodeState) (call : Submission)
    (accepted : (tryApplyBlock config node call).2 = .ok ()) :
    Acceptable config call.nowMs node.store.tip call.block ∧
      (tryApplyBlock config node call).1.store.tip = some call.block := by
  have outcome := try_apply_block_outcome config node call
  generalize tryApplyBlock config node call = result at outcome accepted ⊢
  cases outcome with
  | refused e => cases accepted
  | notApplied state e acceptable applied => cases accepted
  | notLogged state out written acceptable applied failed => cases accepted
  | logged state out acceptable applied done => exact ⟨acceptable, rfl⟩

theorem honest_passes_iff (config : MinerConfig) (node : NodeState) (call : Submission) (nowMs : U64)
    (accepted : (tryApplyBlock config.toNodeConfig node call).2 = .ok ()) :
    HonestPasses config (tryApplyBlock config.toNodeConfig node call).1 nowMs ↔
      call.block.header.timestampMs.toNat ≤ nowMs.toNat ∧ nowMs.toNat + futureTimeToleranceMs.toNat < 2 ^ 64 := by
  rw [honest_passes_now, (accepted_tip config.toNodeConfig node call accepted).2, tip_passes_iff]

theorem clock_catches_up (config : MinerConfig) (node : NodeState) (call : Submission) (nowMs : U64)
    (accepted : (tryApplyBlock config.toNodeConfig node call).2 = .ok ())
    (waited : call.nowMs.toNat + futureTimeToleranceMs.toNat ≤ nowMs.toNat) :
    call.block.header.timestampMs.toNat ≤ nowMs.toNat := by
  have skew := (accepted_tip config.toNodeConfig node call accepted).1.skew
  have bound := nowMs.isLt
  rw [BitVec.lt_def, BitVec.toNat_add, Nat.mod_eq_of_lt (by omega)] at skew
  omega

omit [SigFns] [StateCbor] in
theorem early_clock_refused (config : NodeConfig) (tip : Block) (submitMs : U64) (hdr : BlockHeader) (body : BlockBody)
    (early : hdr.timestampMs < tip.header.timestampMs) : ¬ Acceptable config submitMs (some tip) ⟨hdr, body⟩ :=
  fun acceptable => acceptable.monotonic early

end

open Sample in
theorem taken_at_its_time_passes :
    HonestPasses shippedMiner (tryApplyBlock shippedMiner.toNodeConfig freshNode pokeOnce).1 1778717420000 ↔
      pokeOnce.block.header.timestampMs.toNat ≤ (1778717420000 : U64).toNat ∧
        (1778717420000 : U64).toNat + futureTimeToleranceMs.toNat < 2 ^ 64 :=
  honest_passes_iff shippedMiner freshNode pokeOnce 1778717420000 (by decide +kernel)

open Sample in
theorem stamped_ahead_locks_out :
    let ahead := { pokeOnce with nowMs := 1778716820000 }
    let next := (tryApplyBlock shippedMiner.toNodeConfig freshNode ahead).1
    (tryApplyBlock shippedMiner.toNodeConfig freshNode ahead).2 = .ok () ∧
      ahead.nowMs.toNat ≤ (1778717419999 : U64).toNat ∧ ¬ HonestPasses shippedMiner next 1778717419999 ∧
      ∀ (submitMs nonce : U64) (body : BlockBody), ¬ Acceptable shippedMiner.toNodeConfig submitMs next.store.tip
        ⟨{ (template shippedMiner next 1778717419999).header with nonce }, body⟩ := by
  intro ahead next
  have accepted : (tryApplyBlock shippedMiner.toNodeConfig freshNode ahead).2 = .ok () := by decide +kernel
  have tip := (accepted_tip shippedMiner.toNodeConfig freshNode ahead accepted).2
  refine ⟨accepted, by decide, ?_, ?_⟩
  · rw [honest_passes_now, tip, tip_passes_iff]
    decide
  · intro submitMs nonce body
    rw [tip]
    apply early_clock_refused
    rw [template_stamps_now]
    decide

end PyGrove.Node
