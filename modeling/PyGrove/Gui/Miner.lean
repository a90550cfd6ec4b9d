import PyGrove.Node.Rpc
import PyGrove.Node.SelfMining

set_option autoImplicit false

namespace PyGrove.Node

open Words Steps PyGrove.Core Crypto PyGrove.Consensus PyGrove.State

inductive SubmitBlockError where
  | lengthMismatch (txs witnesses : Nat)
  | txCbor (i : Nat) (reason : String)
  | witnessCbor (i : Nat) (reason : String)
  | refused (e : SubmitError)
deriving DecidableEq

def decodeEach {α : Type} (codec : Codec α) : List (List U8 × Nat) → Except (Nat × String) (List α)
  | [] => .ok []
  | (bytes, i) :: tail =>
      match codec.decode bytes with
      | .error reason => .error (i, reason)
      | .ok value =>
          match decodeEach codec tail with
          | .error e => .error e
          | .ok values => .ok (value :: values)

section
variable [HashFns] [SigFns] [StateCbor]

def submit (config : NodeConfig) (node : NodeState) (header : BlockHeader)
    (txsCbor witnessesCbor : List (List U8)) (nowMs : U64) (write : WriteOutcome) :
    NodeState × Except SubmitBlockError Unit :=
  if txsCbor.length ≠ witnessesCbor.length then
    (node, .error (.lengthMismatch txsCbor.length witnessesCbor.length))
  else
    match decodeEach txBodyWire.codec txsCbor.zipIdx with
    | .error (i, reason) => (node, .error (.txCbor i reason))
    | .ok txs =>
        match decodeEach witnessWire.codec witnessesCbor.zipIdx with
        | .error (i, reason) => (node, .error (.witnessCbor i reason))
        | .ok witnesses =>
            let (next, result) := tryApplyBlock config node ⟨nowMs, ⟨header, ⟨txs, witnesses⟩⟩, write⟩
            (next, result.mapError .refused)

theorem submit_outcome (config : NodeConfig) (node : NodeState) (header : BlockHeader)
    (txsCbor witnessesCbor : List (List U8)) (nowMs : U64) (write : WriteOutcome) :
    (∃ e, submit config node header txsCbor witnessesCbor nowMs write = (node, .error e)) ∨
      ∃ body, submit config node header txsCbor witnessesCbor nowMs write =
        ((tryApplyBlock config node ⟨nowMs, ⟨header, body⟩, write⟩).1,
          (tryApplyBlock config node ⟨nowMs, ⟨header, body⟩, write⟩).2.mapError .refused) := by
  rw [submit]
  split
  · exact .inl ⟨_, rfl⟩
  · split
    · exact .inl ⟨_, rfl⟩
    · split
      · exact .inl ⟨_, rfl⟩
      · exact .inr ⟨_, rfl⟩

end

end PyGrove.Node

namespace PyGrove.Gui

open Words Steps PyGrove.Core Crypto PyGrove.Consensus PyGrove.State PyGrove.Node

structure Worker where
  tmpl : BlockHeader
  hashes : U64
  accepted : U64
  rejected : U64

-- A request may not arrive, and so may its answer.
inductive Delivery where
  | answered
  | requestLost
  | replyLost
deriving DecidableEq

inductive SessionEvent where
  | served (event : NodeEvent)
  | batch (submitMs : U64) (write : WriteOutcome) (delivery : Delivery)

structure Session where
  worker : Worker
  node : NodeState

structure Sent where
  header : BlockHeader
  taken : Bool

def nonceAt (start : BlockHeader) (stride : U64) (k : Nat) : BlockHeader :=
  { start with nonce := start.nonce + BitVec.ofNat 64 k * stride }

theorem nonce_at_succ (start : BlockHeader) (stride : U64) (k : Nat) :
    { nonceAt start stride k with nonce := (nonceAt start stride k).nonce + stride } = nonceAt start stride (k + 1) := by
  have sum : start.nonce + BitVec.ofNat 64 k * stride + stride = start.nonce + BitVec.ofNat 64 (k + 1) * stride := by
    rw [BitVec.ofNat_add, BitVec.add_mul, BitVec.add_assoc]
    exact congrArg _ (congrArg _ (BitVec.one_mul stride).symm)
  simp only [nonceAt, sum]

section
variable [HashFns]

def tryNonces (target : Bytes 32) (stride : U64) : Nat → Worker → Worker × Bool
  | 0, worker => (worker, false)
  | tries + 1, worker =>
      let counted := { worker with hashes := worker.hashes + 1 }
      if meetsTarget (hashHeader worker.tmpl).toList target.toList then (counted, true)
      else
        tryNonces target stride tries
          { counted with tmpl := { worker.tmpl with nonce := worker.tmpl.nonce + stride } }

def startSession (resp : TemplateResp) (coinbase : Bytes 32) (threadId hashes accepted rejected : U64) : Worker where
  tmpl := { resp.header with coinbase, nonce := threadId }
  hashes := hashes
  accepted := accepted
  rejected := rejected

def Works (target : Bytes 32) (header : BlockHeader) : Prop :=
  meetsTarget (hashHeader header).toList target.toList = true

structure Reached (start : BlockHeader) (stride : U64) (target : Bytes 32) (header : BlockHeader) (k : Nat) : Prop where
  place : header = nonceAt start stride k
  before : ∀ j < k, ¬ Works target (nonceAt start stride j)

theorem try_nonces_counters (target : Bytes 32) (stride : U64) (tries : Nat) (worker : Worker) :
    (tryNonces target stride tries worker).1.accepted = worker.accepted ∧
      (tryNonces target stride tries worker).1.rejected = worker.rejected := by
  induction tries generalizing worker with
  | zero => exact ⟨rfl, rfl⟩
  | succ tries ih =>
      rw [tryNonces]
      dsimp only
      split
      · exact ⟨rfl, rfl⟩
      · exact ih _

theorem try_nonces_reached (start : BlockHeader) (stride : U64) (target : Bytes 32) (tries : Nat) (worker : Worker)
    (k : Nat) (reached : Reached start stride target worker.tmpl k) :
    ∃ later, Reached start stride target (tryNonces target stride tries worker).1.tmpl later ∧
      ((tryNonces target stride tries worker).2 = true → Works target (nonceAt start stride later)) := by
  induction tries generalizing worker k with
  | zero => exact ⟨k, reached, fun found => by cases found⟩
  | succ tries ih =>
      rw [tryNonces]
      dsimp only
      by_cases works : meetsTarget (hashHeader worker.tmpl).toList target.toList = true
      · rw [if_pos works]
        exact ⟨k, reached, fun _ => reached.place ▸ works⟩
      · rw [if_neg works]
        apply ih _ (k + 1)
        refine ⟨?_, fun j earlier => ?_⟩
        · rw [← nonce_at_succ, ← reached.place]
        · rcases Nat.lt_succ_iff_lt_or_eq.mp earlier with below | rfl
          · exact reached.before j below
          · rw [← reached.place]
            exact works

def FirstWorking (start : BlockHeader) (stride : U64) (target : Bytes 32) (header : BlockHeader) : Prop :=
  ∃ k, Reached start stride target header k ∧ Works target header

theorem first_working_unique (start : BlockHeader) (stride : U64) (target : Bytes 32) (a b : BlockHeader)
    (first : FirstWorking start stride target a) (second : FirstWorking start stride target b) : a = b := by
  obtain ⟨i, reachedA, worksA⟩ := first
  obtain ⟨j, reachedB, worksB⟩ := second
  rw [reachedA.place] at worksA
  rw [reachedB.place] at worksB
  have same : i = j := by
    by_contra apart
    rcases Nat.lt_or_gt_of_ne apart with less | more
    · exact reachedB.before i less worksA
    · exact reachedA.before j more worksB
  rw [reachedA.place, reachedB.place, same]

variable [SigFns] [StateCbor]

def deliver (config : NodeConfig) (resp : TemplateResp) (node : NodeState) (header : BlockHeader) (submitMs : U64)
    (write : WriteOutcome) : NodeState × Bool :=
  match readBoundedBody (post (rpcSubmitBlock header resp.txsCbor resp.witnessesCbor)) maxRpcBodyBytes with
  | .error _ => (node, false)
  | .ok _ =>
      let (next, result) := submit config node header resp.txsCbor resp.witnessesCbor submitMs write
      (next, result.isOk)

def sessionStep (config : NodeConfig) (resp : TemplateResp) (stride : U64) (session : Session) :
    SessionEvent → Session × Option Sent
  | .served event => ({ session with node := (serve config session.node event).1 }, none)
  | .batch submitMs write delivery =>
      match tryNonces resp.target stride 4096 session.worker with
      | (worker, false) => ({ session with worker }, none)
      | (worker, true) =>
          if delivery = .requestLost then
            ({ session with worker := { worker with rejected := worker.rejected + 1 } }, some ⟨worker.tmpl, false⟩)
          else
            let (node, taken) := deliver config resp session.node worker.tmpl submitMs write
            let counted :=
              if taken ∧ delivery = .answered then { worker with accepted := worker.accepted + 1 }
              else { worker with rejected := worker.rejected + 1 }
            (⟨counted, node⟩, some ⟨worker.tmpl, taken⟩)

theorem deliver_serves (config : NodeConfig) (resp : TemplateResp) (node : NodeState) (header : BlockHeader)
    (submitMs : U64) (write : WriteOutcome) :
    deliver config resp node header submitMs write = (node, false) ∨
      ∃ body, deliver config resp node header submitMs write =
        ((tryApplyBlock config node ⟨submitMs, ⟨header, body⟩, write⟩).1,
          (tryApplyBlock config node ⟨submitMs, ⟨header, body⟩, write⟩).2.isOk) := by
  rw [deliver]
  cases readBoundedBody (post (rpcSubmitBlock header resp.txsCbor resp.witnessesCbor)) maxRpcBodyBytes with
  | error e => exact .inl rfl
  | ok bytes =>
      dsimp only
      rcases submit_outcome config node header resp.txsCbor resp.witnessesCbor submitMs write with
        ⟨e, stopped⟩ | ⟨body, passed⟩
      · left
        rw [stopped]
        rfl
      · right
        refine ⟨body, ?_⟩
        rw [passed]
        cases (tryApplyBlock config node ⟨submitMs, ⟨header, body⟩, write⟩).2 <;> rfl

theorem deliver_taken (config : NodeConfig) (resp : TemplateResp) (node : NodeState) (header : BlockHeader)
    (submitMs : U64) (write : WriteOutcome) (tip : Block) (held : node.store.tip = some tip) :
    let (next, taken) := deliver config resp node header submitMs write
    ∃ after, next.store.tip = some after ∧ (after = tip ∨ after.header.height = tip.header.height + 1) ∧
      (taken = true → after.header = header ∧ header.height = tip.header.height + 1) := by
  rcases deliver_serves config resp node header submitMs write with same | ⟨body, same⟩
  · rw [same]
    exact ⟨tip, held, .inl rfl, fun taken => by cases taken⟩
  · rw [same]
    obtain ⟨after, reached, moved⟩ := served_tip config node (.submitBlock ⟨submitMs, ⟨header, body⟩, write⟩) tip held
    refine ⟨after, reached, moved, fun taken => ?_⟩
    obtain ⟨acceptable, grown⟩ := accepted_tip config node ⟨submitMs, ⟨header, body⟩, write⟩ (is_ok_unit _ taken)
    have height := acceptable.height
    rw [held] at height
    rw [serve] at reached
    dsimp only at reached
    rw [grown] at reached
    cases reached
    exact ⟨rfl, height⟩

structure Tallied (before after : Worker) (sent : List Sent) (answered : Nat) : Prop where
  few : answered ≤ sent.countP Sent.taken
  accepted : after.accepted = before.accepted + BitVec.ofNat 64 answered
  rejected : after.rejected = before.rejected + BitVec.ofNat 64 (sent.length - answered)

omit [HashFns] [SigFns] [StateCbor] in
theorem tallied_unsent (before after : Worker) (accepted : after.accepted = before.accepted)
    (rejected : after.rejected = before.rejected) : Tallied before after [] 0 :=
  ⟨Nat.le_refl 0, accepted.trans (BitVec.add_zero _).symm, rejected.trans (BitVec.add_zero _).symm⟩

omit [HashFns] [SigFns] [StateCbor] in
theorem tallied_append (a b c : Worker) (first second : List Sent) (i j : Nat) (before : Tallied a b first i)
    (after : Tallied b c second j) : Tallied a c (first ++ second) (i + j) := by
  have boundBefore := before.few.trans (List.countP_le_length (l := first))
  have boundAfter := after.few.trans (List.countP_le_length (l := second))
  refine ⟨?_, ?_, ?_⟩
  · rw [List.countP_append]
    exact Nat.add_le_add before.few after.few
  · rw [after.accepted, before.accepted, BitVec.ofNat_add, BitVec.add_assoc]
  · rw [after.rejected, before.rejected, BitVec.add_assoc, ← BitVec.ofNat_add, List.length_append]
    congr 2
    omega

structure SessionTurn (resp : TemplateResp) (stride : U64) (start : BlockHeader) (tip : Block) (worker : Worker)
    (result : Session × Option Sent) : Prop where
  reached : ∃ k, Reached start stride resp.target result.1.worker.tmpl k
  sent : ∀ sent ∈ result.2.toList, FirstWorking start stride resp.target sent.header
  climbed : ∃ after, result.1.node.store.tip = some after ∧
    (after = tip ∨ after.header.height = tip.header.height + 1) ∧
    ∀ sent ∈ result.2.toList, sent.taken = true →
      after.header = sent.header ∧ sent.header.height = tip.header.height + 1
  tallied : ∃ answered, Tallied worker result.1.worker result.2.toList answered

theorem session_turn (config : NodeConfig) (resp : TemplateResp) (stride : U64) (start : BlockHeader)
    (session : Session) (event : SessionEvent) (tip : Block) (held : session.node.store.tip = some tip) (k : Nat)
    (reached : Reached start stride resp.target session.worker.tmpl k) :
    SessionTurn resp stride start tip session.worker (sessionStep config resp stride session event) := by
  cases event with
  | served event =>
      obtain ⟨after, climbed, moved⟩ := served_tip config session.node event tip held
      exact ⟨⟨k, reached⟩, (fun sent member => by cases member),
        ⟨after, climbed, moved, fun sent member => by cases member⟩, 0, tallied_unsent _ _ rfl rfl⟩
  | batch submitMs write delivery =>
      obtain ⟨later, reachedLater, works⟩ := try_nonces_reached start stride resp.target 4096 session.worker k reached
      obtain ⟨accepted, rejected⟩ := try_nonces_counters resp.target stride 4096 session.worker
      rw [sessionStep]
      generalize tryNonces resp.target stride 4096 session.worker = tried at reachedLater works accepted rejected ⊢
      obtain ⟨worker, found⟩ := tried
      dsimp only at accepted rejected
      cases found with
      | false =>
          exact ⟨⟨later, reachedLater⟩, (fun sent member => by cases member),
            ⟨tip, held, .inl rfl, fun sent member => by cases member⟩, 0, tallied_unsent _ _ accepted rejected⟩
      | true =>
          have working : FirstWorking start stride resp.target worker.tmpl :=
            ⟨later, reachedLater, reachedLater.place ▸ works rfl⟩
          have sends (taken : Bool) : ∀ sent ∈ (some (Sent.mk worker.tmpl taken)).toList,
              FirstWorking start stride resp.target sent.header := by
            intro sent member
            rw [List.mem_singleton.mp member]
            exact working
          dsimp only
          by_cases lost : delivery = .requestLost
          · rw [if_pos lost]
            refine ⟨⟨later, reachedLater⟩, sends false, ⟨tip, held, .inl rfl, ?_⟩, 0, Nat.zero_le _, ?_, ?_⟩
            · intro sent member taken
              rw [List.mem_singleton.mp member] at taken
              cases taken
            · exact accepted.trans (BitVec.add_zero _).symm
            · exact congrArg (· + 1) rejected
          · rw [if_neg lost]
            have delivered := deliver_taken config resp session.node worker.tmpl submitMs write tip held
            generalize deliver config resp session.node worker.tmpl submitMs write = answer at delivered ⊢
            obtain ⟨node, taken⟩ := answer
            obtain ⟨after, grown, moved, took⟩ := delivered
            have climbed : ∀ sent ∈ (some (Sent.mk worker.tmpl taken)).toList, sent.taken = true →
                after.header = sent.header ∧ sent.header.height = tip.header.height + 1 := by
              intro sent member ok
              rw [List.mem_singleton.mp member] at ok ⊢
              exact took ok
            dsimp only
            by_cases counted : taken = true ∧ delivery = .answered
            · rw [if_pos counted]
              refine ⟨⟨later, reachedLater⟩, sends taken, ⟨after, grown, moved, climbed⟩, 1, ?_, ?_, ?_⟩
              · rw [counted.1]
                exact Nat.le_refl 1
              · exact congrArg (· + 1) accepted
              · exact rejected.trans (BitVec.add_zero _).symm
            · rw [if_neg counted]
              refine ⟨⟨later, reachedLater⟩, sends taken, ⟨after, grown, moved, climbed⟩, 0, Nat.zero_le _, ?_, ?_⟩
              · exact accepted.trans (BitVec.add_zero _).symm
              · exact congrArg (· + 1) rejected

def sends (config : NodeConfig) (resp : TemplateResp) (stride : U64) (session : Session) (events : List SessionEvent) :
    List Sent :=
  (replies (sessionStep config resp stride) session events).flatMap Option.toList

theorem sends_cons (config : NodeConfig) (resp : TemplateResp) (stride : U64) (session : Session) (event : SessionEvent)
    (tail : List SessionEvent) :
    sends config resp stride session (event :: tail) = (sessionStep config resp stride session event).2.toList ++
      sends config resp stride (sessionStep config resp stride session event).1 tail := by
  rw [sends, replies, List.flatMap_cons, sends]

theorem sends_working (config : NodeConfig) (resp : TemplateResp) (stride : U64) (start : BlockHeader)
    (session : Session) (events : List SessionEvent) (tip : Block) (held : session.node.store.tip = some tip) (k : Nat)
    (reached : Reached start stride resp.target session.worker.tmpl k) :
    (∀ sent ∈ sends config resp stride session events, FirstWorking start stride resp.target sent.header) ∧
      ∃ answered, Tallied session.worker (runCalls (sessionStep config resp stride) session events).worker
        (sends config resp stride session events) answered := by
  induction events generalizing session tip k with
  | nil => exact ⟨(fun sent member => by cases member), 0, tallied_unsent _ _ rfl rfl⟩
  | cons event tail ih =>
      have turn := session_turn config resp stride start session event tip held k reached
      obtain ⟨later, reachedLater⟩ := turn.reached
      obtain ⟨after, grown, _⟩ := turn.climbed
      obtain ⟨first, tallied⟩ := turn.tallied
      obtain ⟨working, rest, talliedRest⟩ := ih _ after grown later reachedLater
      rw [sends_cons]
      refine ⟨fun sent member => ?_, first + rest, tallied_append _ _ _ _ _ _ _ tallied talliedRest⟩
      rcases List.mem_append.mp member with now | afterwards
      · exact turn.sent sent now
      · exact working sent afterwards

theorem passed_never_taken (config : NodeConfig) (resp : TemplateResp) (stride : U64) (start header : BlockHeader)
    (first : FirstWorking start stride resp.target header) (session : Session) (events : List SessionEvent) (tip : Block)
    (held : session.node.store.tip = some tip) (passed : Nat)
    (height : tip.header.height = header.height + BitVec.ofNat 64 passed)
    (few : passed + events.length < 2 ^ 64) (k : Nat)
    (reached : Reached start stride resp.target session.worker.tmpl k) :
    (sends config resp stride session events).countP Sent.taken = 0 := by
  induction events generalizing session tip k passed with
  | nil => rfl
  | cons event tail ih =>
      rw [List.length_cons] at few
      have turn := session_turn config resp stride start session event tip held k reached
      obtain ⟨later, reachedLater⟩ := turn.reached
      obtain ⟨after, grown, moved, took⟩ := turn.climbed
      have now : (sessionStep config resp stride session event).2.toList.countP Sent.taken = 0 := by
        rw [List.countP_eq_zero]
        intro sent member taken
        have same := first_working_unique start stride resp.target _ _ (turn.sent sent member) first
        have expected := (took sent member taken).2
        rw [same, height, BitVec.add_assoc] at expected
        have none : BitVec.ofNat 64 passed + 1 = 0 := BitVec.self_eq_add_right.mp expected
        have value := congrArg BitVec.toNat none
        rw [show (1 : U64) = BitVec.ofNat 64 1 from rfl, ← BitVec.ofNat_add, BitVec.toNat_ofNat,
          Nat.mod_eq_of_lt (by omega)] at value
        cases value
      rw [sends_cons, List.countP_append, now, Nat.zero_add]
      rcases moved with rfl | up
      · exact ih _ after grown passed height (by omega) later reachedLater
      · apply ih _ after grown (passed + 1) _ (by omega) later reachedLater
        rw [up, height, BitVec.ofNat_add, BitVec.add_assoc]
        rfl

theorem taken_at_most_once (config : NodeConfig) (resp : TemplateResp) (stride : U64) (start : BlockHeader)
    (session : Session) (events : List SessionEvent) (few : events.length < 2 ^ 64) (tip : Block)
    (held : session.node.store.tip = some tip) (k : Nat)
    (reached : Reached start stride resp.target session.worker.tmpl k) :
    (sends config resp stride session events).countP Sent.taken ≤ 1 := by
  induction events generalizing session tip k with
  | nil => exact Nat.zero_le 1
  | cons event tail ih =>
      rw [List.length_cons] at few
      have turn := session_turn config resp stride start session event tip held k reached
      obtain ⟨later, reachedLater⟩ := turn.reached
      obtain ⟨after, grown, moved, took⟩ := turn.climbed
      rw [sends_cons, List.countP_append]
      by_cases taken : ∃ sent ∈ (sessionStep config resp stride session event).2.toList, sent.taken = true
      · obtain ⟨sent, member, ok⟩ := taken
        have height : after.header.height = sent.header.height + BitVec.ofNat 64 0 := by
          rw [(took sent member ok).1]
          exact (BitVec.add_zero _).symm
        rw [passed_never_taken config resp stride start sent.header (turn.sent sent member) _ tail after grown 0 height
          (by omega) later reachedLater, Nat.add_zero]
        exact List.countP_le_length.trans Option.length_toList_le
      · have none : (sessionStep config resp stride session event).2.toList.countP Sent.taken = 0 :=
          List.countP_eq_zero.mpr fun sent member ok => taken ⟨sent, member, ok⟩
        rw [none, Nat.zero_add]
        exact ih _ (by omega) after grown later reachedLater

theorem session_sends_one_block (config : NodeConfig) (resp : TemplateResp) (coinbase : Bytes 32)
    (threadId stride hashes accepted rejected : U64) (node : NodeState) (tip : Block) (held : node.store.tip = some tip)
    (events : List SessionEvent) (few : events.length < 2 ^ 64) :
    let worker := startSession resp coinbase threadId hashes accepted rejected
    let sent := sends config resp stride ⟨worker, node⟩ events
    let final := (runCalls (sessionStep config resp stride) ⟨worker, node⟩ events).worker
    (∀ a ∈ sent, ∀ b ∈ sent, a.header = b.header) ∧
      (∀ item ∈ sent, FirstWorking worker.tmpl stride resp.target item.header) ∧ sent.countP Sent.taken ≤ 1 ∧
      ∃ answered, answered ≤ sent.countP Sent.taken ∧ final.accepted = accepted + BitVec.ofNat 64 answered ∧
        final.rejected = rejected + BitVec.ofNat 64 (sent.length - answered) := by
  intro worker sent final
  have reached : Reached worker.tmpl stride resp.target worker.tmpl 0 := by
    refine ⟨?_, fun j none => absurd none (Nat.not_lt_zero j)⟩
    rw [nonceAt, BitVec.zero_mul, BitVec.add_zero]
  obtain ⟨working, answered, tallied⟩ :=
    sends_working config resp stride worker.tmpl ⟨worker, node⟩ events tip held 0 reached
  exact ⟨fun a inSent b alsoSent => first_working_unique _ _ _ _ _ (working a inSent) (working b alsoSent), working,
    taken_at_most_once config resp stride worker.tmpl ⟨worker, node⟩ events few tip held 0 reached,
    answered, tallied.few, tallied.accepted, tallied.rejected⟩

end

end PyGrove.Gui

namespace PyGrove.Sample

open Words PyGrove.Core PyGrove.Consensus PyGrove.Node PyGrove.Gui

def pokeTemplate : TemplateResp where
  header := minedHeader
  target := targetFromBits 0x1F00FFFF
  txsCbor := pokeBody.txs.map txBodyWire.codec.encode
  witnessesCbor := pokeBody.witnesses.map witnessWire.codec.encode

def pokeSession : List SessionEvent :=
  [.served pokeServed, .batch 1778717421000 .done .replyLost, .batch 1778717421001 .done .answered]

end PyGrove.Sample

namespace PyGrove.Gui

open Words Steps PyGrove.Core PyGrove.State PyGrove.Node

open Sample in
theorem poke_sent_twice :
    let worker := startSession pokeTemplate shippedMiner.coinbase 0 0 0 0
    let sent := sends Genesis.shipped.nodeConfig pokeTemplate 4 ⟨worker, freshNode⟩ pokeSession
    let final :=
      (runCalls (sessionStep Genesis.shipped.nodeConfig pokeTemplate 4) ⟨worker, freshNode⟩ pokeSession).worker
    (∀ a ∈ sent, ∀ b ∈ sent, a.header = b.header) ∧
      (∀ item ∈ sent, FirstWorking worker.tmpl 4 pokeTemplate.target item.header) ∧ sent.countP Sent.taken ≤ 1 ∧
      ∃ answered, answered ≤ sent.countP Sent.taken ∧ final.accepted = 0 + BitVec.ofNat 64 answered ∧
        final.rejected = 0 + BitVec.ofNat 64 (sent.length - answered) :=
  session_sends_one_block Genesis.shipped.nodeConfig pokeTemplate shippedMiner.coinbase 0 4 0 0 0 freshNode genesisBlock
    rfl pokeSession (by decide)

end PyGrove.Gui
