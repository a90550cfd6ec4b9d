import PyGrove.Node.BlockProduction
import PyGrove.Node.ChainHistory

set_option autoImplicit false

namespace PyGrove.Node

open Words Steps Frames PyGrove.Core Crypto PyGrove.Consensus PyGrove.State

inductive LifeEvent where
  | served (event : NodeEvent)
  | restart

inductive LifeReply where
  | served (reply : NodeReply)
  | restarted (result : Except StartupError Unit)

def submission : LifeEvent → Option Submission
  | .served (.submitBlock call) => some call
  | .served (.submitTx ..) => none
  | .restart => none

def blockReply : LifeReply → Option (Except SubmitError Unit)
  | .served (.block reply) => some reply
  | .served (.tx _) => none
  | .restarted _ => none

section
variable [HashFns] [SigFns] [StateCbor] [HexFns]

def live (g : Genesis) (node : NodeState) : LifeEvent → NodeState × LifeReply
  | .served event =>
      let (next, reply) := serve g.nodeConfig node event
      (next, .served reply)
  | .restart =>
      match cmdRun g node.store.log with
      | .error e => (node, .restarted (.error e))
      | .ok fresh => (fresh, .restarted (.ok ()))

omit [HexFns] in
theorem try_apply_any_pool (config : NodeConfig) (node : NodeState) (pool : Mempool) (call : Submission) :
    ∃ next, tryApplyBlock config { node with mempool := pool } call =
      ({ (tryApplyBlock config node call).1 with mempool := next }, (tryApplyBlock config node call).2) := by
  simp only [tryApplyBlock]
  cases checkBlock config call.nowMs node.store.tip call.block with
  | error e => exact ⟨pool, rfl⟩
  | ok done =>
      dsimp only
      have reward : callReward config { node with mempool := pool } call = callReward config node call := rfl
      rw [reward]
      rcases applyBlock node.state call.block (callReward config node call) with ⟨state, e | out⟩
      · exact ⟨pool, rfl⟩
      · refine ⟨pool.confirm (confirmedHashes call.block), ?_⟩
        cases call.write <;> rfl

theorem live_follows (g : Genesis) (node : NodeState) (pool : Mempool) (blocks : List Block) (synced : Synced g node blocks)
    (event : LifeEvent) :
    match submission event with
    | some call =>
        ∃ next, live g { node with mempool := pool } event =
          ({ (tryApplyBlock g.nodeConfig node call).1 with mempool := next },
            .served (.block (tryApplyBlock g.nodeConfig node call).2))
    | none =>
        ∃ next reply, live g { node with mempool := pool } event = ({ node with mempool := next }, reply) ∧
          blockReply reply = none ∧ ∀ e, reply ≠ .restarted (.error e) := by
  cases event with
  | restart =>
      have survives := synced_survives g node blocks synced
      refine ⟨.new 10000, .restarted (.ok ()), ?_, rfl, fun e same => by cases same⟩
      rw [SurvivesRestart] at survives
      simp only [live]
      rw [survives]
  | served event =>
      cases event with
      | submitTx body witness nowMs =>
          exact ⟨(pool.submit body witness nowMs).1, .served (.tx (pool.submit body witness nowMs).2), rfl, rfl,
            fun e same => by cases same⟩
      | submitBlock call =>
          obtain ⟨next, same⟩ := try_apply_any_pool g.nodeConfig node pool call
          refine ⟨next, ?_⟩
          simp only [live, serve]
          rw [same]

theorem lives_follow (g : Genesis) (node : NodeState) (pool : Mempool) (blocks : List Block) (synced : Synced g node blocks)
    (events : List LifeEvent)
    (clean : Along (tryApplyBlock g.nodeConfig) (CleanCall g.nodeConfig) node (events.filterMap submission)) :
    let answers := replies (live g) { node with mempool := pool } events
    answers.filterMap blockReply = replies (tryApplyBlock g.nodeConfig) node (events.filterMap submission) ∧
      (∀ e, .restarted (.error e) ∉ answers) ∧
      ∃ next, runCalls (live g) { node with mempool := pool } events =
        { runCalls (tryApplyBlock g.nodeConfig) node (events.filterMap submission) with mempool := next } := by
  induction events generalizing node pool blocks with
  | nil => exact ⟨rfl, fun e => List.not_mem_nil, pool, rfl⟩
  | cons event tail ih =>
      have step := live_follows g node pool blocks synced event
      rw [replies, runCalls, List.foldl_cons]
      cases submitted : submission event with
      | some call =>
          rw [submitted] at step
          obtain ⟨next, reached⟩ := step
          rw [List.filterMap_cons_some submitted] at clean ⊢
          obtain ⟨after, syncedNext⟩ := synced_call g node blocks call synced clean.1
          obtain ⟨answers, started, last, final⟩ := ih _ next after syncedNext clean.2
          rw [reached]
          refine ⟨?_, ?_, last, final⟩
          · rw [List.filterMap_cons_some (by rfl), answers]
            rfl
          · intro e member
            rcases List.mem_cons.mp member with here | later
            · cases here
            · exact started e later
      | none =>
          rw [submitted] at step
          obtain ⟨next, reply, reached, silent, sound⟩ := step
          rw [List.filterMap_cons_none submitted] at clean ⊢
          obtain ⟨answers, started, last, final⟩ := ih node next blocks synced clean
          rw [reached]
          refine ⟨?_, ?_, last, final⟩
          · rw [List.filterMap_cons_none silent]
            exact answers
          · intro e member
            rcases List.mem_cons.mp member with here | later
            · exact sound e here.symm
            · exact started e later

theorem restarts_transparent (g : Genesis) (log : List U8) (blocks : List Block) (start : NodeState)
    (whole : Records blockCodec log blocks) (ordered : InOrder blocks) (started : cmdRun g log = .ok start)
    (events : List LifeEvent)
    (clean : Along (tryApplyBlock g.nodeConfig) (CleanCall g.nodeConfig) start (events.filterMap submission)) :
    let answers := replies (live g) start events
    answers.filterMap blockReply = replies (tryApplyBlock g.nodeConfig) start (events.filterMap submission) ∧
      (∀ e, .restarted (.error e) ∉ answers) ∧
      ∃ pool, runCalls (live g) start events =
        { runCalls (tryApplyBlock g.nodeConfig) start (events.filterMap submission) with mempool := pool } :=
  lives_follow g start start.mempool blocks
    (cmd_run_synced g log blocks start whole ordered (cmd_run_nonempty g log blocks start whole started) started) events clean

end

open Sample in
theorem poke_restart_poke :
    let events : List LifeEvent := [.served (.submitBlock pokeOnce), .restart, .served (.submitBlock pokeNext), .restart]
    let answers := replies (live .shipped) freshNode events
    answers.filterMap blockReply = replies (tryApplyBlock Genesis.shipped.nodeConfig) freshNode [pokeOnce, pokeNext] ∧
      (∀ e, .restarted (.error e) ∉ answers) ∧
      ∃ pool, runCalls (live .shipped) freshNode events =
        { runCalls (tryApplyBlock Genesis.shipped.nodeConfig) freshNode [pokeOnce, pokeNext] with mempool := pool } :=
  restarts_transparent .shipped freshNode.store.log [genesisBlock] freshNode genesis_log genesis_in_order fresh_node_started
    [.served (.submitBlock pokeOnce), .restart, .served (.submitBlock pokeNext), .restart] poke_and_stale_clean

end PyGrove.Node
