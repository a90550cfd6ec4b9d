import PyGrove.Node.BlockProduction
import PyGrove.Node.ChainHistory

set_option autoImplicit false

namespace PyGrove.Node

open Words Steps Frames PyGrove.Core Crypto PyGrove.Consensus PyGrove.State

def NodeEvent.submission : NodeEvent → Option Submission
  | .submitTx .. => none
  | .submitBlock call => some call

def NodeReply.verdict : NodeReply → Option (Except SubmitError Unit)
  | .tx _ => none
  | .block reply => some reply

structure SameView [StateCbor] [HashFns] (a b : NodeState) : Prop where
  ledger : SameLedger a.state b.state
  minted : a.mintedSoFar = b.mintedSoFar
  prev : a.prevRewardSat = b.prevRewardSat
  tip : a.store.tip.map Block.header = b.store.tip.map Block.header

section
variable [HashFns] [SigFns] [StateCbor]

omit [SigFns] [StateCbor] in
theorem tip_read_by_header (config : NodeConfig) (x y : Option Block) (same : x.map Block.header = y.map Block.header) :
    tipView config x = tipView config y ∧ rewardParentTs config x = rewardParentTs config y := by
  cases x with
  | none =>
      cases y with
      | none => exact ⟨rfl, rfl⟩
      | some y => cases same
  | some x =>
      cases y with
      | none => cases same
      | some y =>
          have header := Option.some.inj same
          rw [tipView, tipView, rewardParentTs, rewardParentTs, header]
          exact ⟨rfl, rfl⟩

theorem call_in_step (config : NodeConfig) (a b : NodeState) (same : SameView a b) (call : Submission) :
    (tryApplyBlock config a call).2 = (tryApplyBlock config b call).2 ∧
      SameView (tryApplyBlock config a call).1 (tryApplyBlock config b call).1 := by
  obtain ⟨view, parentTs⟩ := tip_read_by_header config _ _ same.tip
  have checked : checkBlock config call.nowMs a.store.tip call.block = checkBlock config call.nowMs b.store.tip call.block := by
    simp only [checkBlock, expectedBits]
    rw [view]
  have reward : callReward config a call = callReward config b call := by
    rw [callReward, callReward, parentTs, same.minted, same.prev]
  have applied := same_ledger_lockstep.block_alike a.state b.state same.ledger call.block (callReward config b call)
  simp only [tryApplyBlock]
  rw [checked, reward]
  cases checkBlock config call.nowMs b.store.tip call.block with
  | error e => exact ⟨rfl, same⟩
  | ok passed =>
      dsimp only
      generalize applyBlock a.state call.block (callReward config b call) = appliedA at applied
      generalize applyBlock b.state call.block (callReward config b call) = appliedB at applied
      obtain ⟨stateA, resultA⟩ := appliedA
      obtain ⟨stateB, resultB⟩ := appliedB
      obtain ⟨verdict, ledger⟩ := applied
      cases verdict with
      | error e => exact ⟨rfl, ledger, same.minted, same.prev, same.tip⟩
      | ok out out' _ =>
          have minted : saturatingAdd a.mintedSoFar (callReward config b call) =
              saturatingAdd b.mintedSoFar (callReward config b call) := by rw [same.minted]
          cases call.write with
          | done => exact ⟨rfl, ledger, minted, rfl, rfl⟩
          | fails written => exact ⟨rfl, ledger, minted, rfl, same.tip⟩

theorem events_in_step (config : NodeConfig) (a b : NodeState) (same : SameView a b) (events : List NodeEvent) :
    let calls := events.filterMap NodeEvent.submission
    (replies (serve config) a events).filterMap NodeReply.verdict = replies (tryApplyBlock config) b calls ∧
      SameView (runCalls (serve config) a events) (runCalls (tryApplyBlock config) b calls) := by
  induction events generalizing a b with
  | nil => exact ⟨rfl, same⟩
  | cons event tail ih =>
      cases event with
      | submitTx body witness nowMs => exact ih _ b ⟨same.ledger, same.minted, same.prev, same.tip⟩
      | submitBlock call =>
          obtain ⟨verdict, next⟩ := call_in_step config a b same call
          obtain ⟨rest, final⟩ := ih _ _ next
          refine ⟨?_, final⟩
          have first : (serve config a (.submitBlock call)).2.verdict = some (tryApplyBlock config a call).2 := rfl
          rw [replies, List.filterMap_cons_some first, verdict]
          exact congrArg (List.cons _) rest

variable [HexFns]

theorem agreed_tips_stay_agreed (g : Genesis) (logA logB : List U8) (blocksA blocksB : List Block)
    (startA startB : NodeState) (startsA : StartsFrom g logA blocksA startA) (startsB : StartsFrom g logB blocksB startB)
    (callsA callsB : List Submission)
    (cleanA : Along (tryApplyBlock g.nodeConfig) (CleanCall g.nodeConfig) startA callsA)
    (cleanB : Along (tryApplyBlock g.nodeConfig) (CleanCall g.nodeConfig) startB callsB)
    (eventsA eventsB : List NodeEvent)
    (sent : eventsA.filterMap NodeEvent.submission = eventsB.filterMap NodeEvent.submission) :
    let a := runCalls (tryApplyBlock g.nodeConfig) startA callsA
    let b := runCalls (tryApplyBlock g.nodeConfig) startB callsB
    let laterA := runCalls (serve g.nodeConfig) a eventsA
    let laterB := runCalls (serve g.nodeConfig) b eventsB
    NoCollisions (blocksA ++ acceptedBlocks g.nodeConfig startA callsA) (blocksB ++ acceptedBlocks g.nodeConfig startB callsB) →
      (a.store.tip.map fun tip => hashHeader tip.header) = (b.store.tip.map fun tip => hashHeader tip.header) →
      (replies (serve g.nodeConfig) a eventsA).filterMap NodeReply.verdict =
          (replies (serve g.nodeConfig) b eventsB).filterMap NodeReply.verdict ∧
        laterA.store.tip.map Block.header = laterB.store.tip.map Block.header ∧
        laterA.mintedSoFar = laterB.mintedSoFar ∧ SameAccounts laterA.state laterB.state := by
  intro a b laterA laterB distinct tips
  obtain ⟨headers, tipA, tipB, same⟩ := tips_pin_replay g logA logB blocksA blocksB startA startB startsA startsB callsA
    callsB cleanA cleanB distinct tips
  have view : SameView a b := by
    refine ⟨same.ledger, same.minted, same.prev, ?_⟩
    rw [tipA, tipB, ← List.getLast?_map, ← List.getLast?_map, headers]
  obtain ⟨verdictsA, finalA⟩ := events_in_step g.nodeConfig a b view eventsA
  obtain ⟨verdictsB, finalB⟩ := events_in_step g.nodeConfig b b ⟨same_ledger_refl _, rfl, rfl, rfl⟩ eventsB
  rw [sent] at verdictsA finalA
  refine ⟨verdictsA.trans verdictsB.symm, finalA.tip.trans finalB.tip.symm, finalA.minted.trans finalB.minted.symm, ?_⟩
  intro id
  exact (same_ledger_accounts _ _ finalA.ledger id).trans (same_ledger_accounts _ _ finalB.ledger id).symm

end

open Sample in
theorem poked_nodes_stay_agreed :
    let a := runCalls (tryApplyBlock Genesis.shipped.nodeConfig) freshNode [pokeOnce]
    let b := runCalls (tryApplyBlock Genesis.shipped.nodeConfig) freshNode [pokeOnce, pokeNext]
    let eventsA : List NodeEvent := [.submitTx (pokeSelf 1).1 (pokeSelf 1).2 1778717431000, .submitBlock pokeTwice]
    let laterA := runCalls (serve Genesis.shipped.nodeConfig) a eventsA
    let laterB := runCalls (serve Genesis.shipped.nodeConfig) b [.submitBlock pokeTwice]
    (replies (serve Genesis.shipped.nodeConfig) a eventsA).filterMap NodeReply.verdict =
        (replies (serve Genesis.shipped.nodeConfig) b [.submitBlock pokeTwice]).filterMap NodeReply.verdict ∧
      laterA.store.tip.map Block.header = laterB.store.tip.map Block.header ∧
      laterA.mintedSoFar = laterB.mintedSoFar ∧ SameAccounts laterA.state laterB.state :=
  agreed_tips_stay_agreed .shipped freshNode.store.log freshNode.store.log [genesisBlock] [genesisBlock] freshNode freshNode
    fresh_starts fresh_starts [pokeOnce] [pokeOnce, pokeNext] ⟨poke_and_stale_clean.1, trivial⟩ poke_and_stale_clean
    [.submitTx (pokeSelf 1).1 (pokeSelf 1).2 1778717431000, .submitBlock pokeTwice] [.submitBlock pokeTwice] rfl
    poked_chains_distinct poked_tips

end PyGrove.Node
