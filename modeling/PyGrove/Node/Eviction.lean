import PyGrove.Node.MempoolQueue

set_option autoImplicit false

namespace PyGrove.Node

open Words Steps AgeQueue PyGrove.Core

def Stands (queue : List PoolEntry) (entry : PoolEntry) (behind : ℕ) : Prop :=
  ∃ ahead younger, queue = ahead ++ entry :: younger ∧ younger.length = behind

theorem stands_mem (queue : List PoolEntry) (entry : PoolEntry) (behind : ℕ) (stands : Stands queue entry behind) :
    entry ∈ queue := by
  obtain ⟨ahead, younger, rfl, _⟩ := stands
  exact List.mem_append_right _ List.mem_cons_self

theorem stands_short (queue : List PoolEntry) (entry : PoolEntry) (behind : ℕ) (stands : Stands queue entry behind) :
    behind < queue.length := by
  obtain ⟨ahead, younger, rfl, rfl⟩ := stands
  rw [List.length_append, List.length_cons]
  omega

theorem stands_leave (queue : List PoolEntry) (entry : PoolEntry) (behind : ℕ) (stands : Stands queue entry behind)
    (blockHashes : List (Bytes 32)) (spared : entry.1 ∉ blockHashes) :
    ∃ fewer ≤ behind, Stands (leave Prod.fst queue blockHashes) entry fewer := by
  obtain ⟨ahead, younger, rfl, rfl⟩ := stands
  refine ⟨_, (leave_sublist Prod.fst younger blockHashes).length_le, leave Prod.fst ahead blockHashes, _, ?_, rfl⟩
  rw [leave, List.filter_append, List.filter_cons_of_pos (by simpa using spared)]
  rfl

theorem stands_fifo (cap : Nat) (queue : List PoolEntry) (entry item : PoolEntry) (behind : ℕ)
    (stands : Stands queue entry behind) :
    Stands (fifo cap queue item) entry (behind + 1) ∨
      cap ≤ behind + 1 ∧ queue.head? = some entry ∧ fifo cap queue item = queue.tail ++ [item] := by
  obtain ⟨ahead, younger, rfl, rfl⟩ := stands
  rw [fifo, makeRoom]
  by_cases full : cap ≤ (ahead ++ entry :: younger).length
  · rw [if_pos full]
    cases ahead with
    | nil =>
        rw [List.nil_append, List.length_cons] at full
        exact .inr ⟨full, rfl, rfl⟩
    | cons first rest =>
        refine .inl ⟨rest, younger ++ [item], ?_, List.length_append⟩
        rw [List.cons_append, List.tail_cons, List.append_assoc, List.cons_append]
  · rw [if_neg full]
    refine .inl ⟨ahead, younger ++ [item], ?_, List.length_append⟩
    rw [List.append_assoc, List.cons_append]

theorem fifo_bounded (cap : Nat) (queue : List PoolEntry) (item : PoolEntry) (bounded : queue.length ≤ max cap 1) :
    (fifo cap queue item).length ≤ max cap 1 := by
  rw [fifo, List.length_append, List.length_singleton, makeRoom]
  split
  · rw [List.length_tail]
    omega
  · omega

theorem fifo_nodup (cap : Nat) (queue : List PoolEntry) (item : PoolEntry) (distinct : queue.Nodup)
    (fresh : ∀ entry ∈ queue, entry.1 ≠ item.1) : (fifo cap queue item).Nodup := by
  rw [fifo]
  refine List.nodup_append.mpr ⟨distinct.sublist (make_room_sublist cap queue), List.nodup_singleton _, ?_⟩
  intro other member new same equal
  rw [List.mem_singleton.mp same] at equal
  exact fresh other ((make_room_sublist cap queue).subset member) (congrArg Prod.fst equal)

section
variable [HashFns]

theorem fifo_keeps (cap : Nat) (entry : PoolEntry) (calls : List PoolCall) (queue : List PoolEntry) (behind : ℕ)
    (stands : Stands queue entry behind) (spared : ∀ blockHashes, .confirm blockHashes ∈ calls → entry.1 ∉ blockHashes)
    (few : behind + (replies (queueCall (fifo cap)) queue calls).countP PoolReply.admitted < max cap 1) :
    entry ∈ runCalls (queueCall (fifo cap)) queue calls := by
  induction calls generalizing queue behind with
  | nil => exact stands_mem queue entry behind stands
  | cons call tail ih =>
      have later : ∀ blockHashes, .confirm blockHashes ∈ tail → entry.1 ∉ blockHashes :=
        fun blockHashes member => spared blockHashes (List.mem_cons_of_mem _ member)
      have step := queue_call_step (fifo cap) queue call
      rw [replies, List.countP_cons] at few
      show entry ∈ runCalls (queueCall (fifo cap)) (queueCall (fifo cap) queue call).1 tail
      generalize queueCall (fifo cap) queue call = result at step few ⊢
      cases step with
      | idle _ reply quiet =>
          dsimp only at few
          exact ih queue behind stands later (by omega)
      | confirmed blockHashes =>
          dsimp only at few ⊢
          obtain ⟨fewer, less, kept⟩ := stands_leave queue entry behind stands blockHashes (spared _ List.mem_cons_self)
          exact ih _ fewer kept later (by omega)
      | admitted body witness nowMs fresh =>
          dsimp only at few ⊢
          rw [if_pos (by rfl)] at few
          rcases stands_fifo cap queue entry (body.bodyHash, { body, witness, receivedMs := nowMs }) behind stands with
            kept | ⟨full, _, _⟩
          · exact ih _ (behind + 1) kept later (by omega)
          · omega

theorem fifo_gone (cap : Nat) (entry : PoolEntry) (calls : List PoolCall) (queue : List PoolEntry) (out : entry ∉ queue)
    (past : ∀ later ∈ calls.filterMap PoolCall.arrival, entry.2.receivedMs < later) :
    entry ∉ runCalls (queueCall (fifo cap)) queue calls := by
  induction calls generalizing queue with
  | nil => exact out
  | cons call tail ih =>
      have still : entry ∉ (queueCall (fifo cap) queue call).1 := by
        intro member
        rcases fifo_call_entry cap queue call entry member with was | came
        · exact out was
        · have before := past entry.2.receivedMs (by rw [List.filterMap_cons_some came]; exact List.mem_cons_self)
          exact Nat.lt_irrefl _ (BitVec.lt_def.mp before)
      exact ih _ still fun later comes => past later (arrivals_cons call tail later comes)

omit [HashFns] in
theorem head_put_out (queue : List PoolEntry) (entry item : PoolEntry) (distinct : queue.Nodup)
    (head : queue.head? = some entry) (younger : entry.2.receivedMs < item.2.receivedMs) : entry ∉ queue.tail ++ [item] := by
  intro member
  rcases List.mem_append.mp member with behind | new
  · cases queue with
    | nil => cases head
    | cons first others =>
        cases head
        exact (List.nodup_cons.mp distinct).1 behind
  · rw [List.mem_singleton.mp new] at younger
    exact Nat.lt_irrefl _ (BitVec.lt_def.mp younger)

theorem fifo_drops (cap : Nat) (entry : PoolEntry) (calls : List PoolCall) (queue : List PoolEntry) (behind : ℕ)
    (stands : Stands queue entry behind) (distinct : queue.Nodup) (bounded : queue.length ≤ max cap 1)
    (past : ∀ later ∈ calls.filterMap PoolCall.arrival, entry.2.receivedMs < later)
    (unconfirmed : ∀ blockHashes, .confirm blockHashes ∉ calls)
    (kept : entry ∈ runCalls (queueCall (fifo cap)) queue calls) :
    behind + (replies (queueCall (fifo cap)) queue calls).countP PoolReply.admitted < max cap 1 := by
  induction calls generalizing queue behind with
  | nil =>
      have short := stands_short queue entry behind stands
      exact Nat.lt_of_lt_of_le short bounded
  | cons call tail ih =>
      have rest : ∀ later ∈ tail.filterMap PoolCall.arrival, entry.2.receivedMs < later := fun later comes =>
        past later (arrivals_cons call tail later comes)
      have later : ∀ blockHashes, .confirm blockHashes ∉ tail :=
        fun blockHashes member => unconfirmed blockHashes (List.mem_cons_of_mem _ member)
      have step := queue_call_step (fifo cap) queue call
      change entry ∈ runCalls (queueCall (fifo cap)) (queueCall (fifo cap) queue call).1 tail at kept
      rw [replies, List.countP_cons]
      generalize queueCall (fifo cap) queue call = result at step kept ⊢
      cases step with
      | idle _ reply quiet =>
          have here := ih queue behind stands distinct bounded rest later kept
          dsimp only
          rw [if_neg (by rw [quiet]; decide)]
          exact here
      | confirmed blockHashes => exact absurd List.mem_cons_self (unconfirmed blockHashes)
      | admitted body witness nowMs fresh =>
          have size := fifo_bounded cap queue (body.bodyHash, { body, witness, receivedMs := nowMs }) bounded
          have nodup := fifo_nodup cap queue (body.bodyHash, { body, witness, receivedMs := nowMs }) distinct fresh
          rcases stands_fifo cap queue entry (body.bodyHash, { body, witness, receivedMs := nowMs }) behind stands with
            stays | ⟨_, head, placed⟩
          · have here := ih _ (behind + 1) stays nodup size rest later kept
            dsimp only
            rw [if_pos (by rfl)]
            omega
          · have before := past nowMs (by simp [PoolCall.arrival])
            refine absurd kept (fifo_gone cap entry tail _ ?_ rest)
            dsimp only
            rw [placed]
            exact head_put_out queue entry _ distinct head before

theorem fifo_arrived (cap : Nat) (calls : List PoolCall) (queue : List PoolEntry) (entry : PoolEntry)
    (member : entry ∈ runCalls (queueCall (fifo cap)) queue calls) :
    entry ∈ queue ∨ entry.2.receivedMs ∈ calls.filterMap PoolCall.arrival := by
  induction calls generalizing queue with
  | nil => exact .inl member
  | cons call tail ih =>
      rcases ih _ member with now | later
      · rcases fifo_call_entry cap queue call entry now with was | came
        · exact .inl was
        · rw [List.filterMap_cons_some came]
          exact .inr List.mem_cons_self
      · exact .inr (arrivals_cons call tail _ later)

structure InLine (cap : Nat) (pool : Mempool) (queue : List PoolEntry) (calls : List PoolCall) : Prop where
  queued : Queued pool queue
  sameCap : pool.cap = cap
  bounded : queue.length ≤ max cap 1
  past : ∀ entry ∈ queue, ∀ later ∈ calls.filterMap PoolCall.arrival, entry.2.receivedMs < later

theorem in_line_reached (cap : Nat) (before after : List PoolCall)
    (clock : ((before ++ after).filterMap PoolCall.arrival).Pairwise (· < ·)) :
    InLine cap (runCalls poolCall (.new cap) before) (runCalls (queueCall (fifo cap)) [] before) after := by
  rw [List.filterMap_append] at clock
  obtain ⟨clockBefore, _, apart⟩ := List.pairwise_append.mp clock
  obtain ⟨_, queued, sameCap⟩ := queued_run cap (.new cap) [] (queued_new cap) rfl before
  have bounded := queue_run_bounded cap before
  rw [(queue_in_order cap [] before clockBefore (by simp)).2] at queued bounded
  refine ⟨queued, sameCap, bounded, ?_⟩
  intro entry member later comes
  rcases fifo_arrived cap before [] entry member with none | arrived
  · cases none
  · exact apart _ arrived later comes

theorem in_line_run (cap : Nat) (pool : Mempool) (queue : List PoolEntry) (calls : List PoolCall)
    (here : InLine cap pool queue calls) (clock : (calls.filterMap PoolCall.arrival).Pairwise (· < ·)) :
    replies poolCall pool calls = replies (queueCall (fifo cap)) queue calls ∧
      Queued (runCalls poolCall pool calls) (runCalls (queueCall (fifo cap)) queue calls) := by
  obtain ⟨answers, reached, _⟩ := queued_run cap pool queue here.queued here.sameCap calls
  obtain ⟨sameReplies, sameRun⟩ := queue_in_order cap queue calls clock here.past
  rw [sameReplies] at answers
  rw [sameRun] at reached
  exact ⟨answers, reached⟩

theorem pending_until_capacity (cap : Nat) (before after : List PoolCall) (body : TxBody) (witness : Witness) (nowMs : U64)
    (hash : Bytes 32)
    (clock : ((before ++ .submit body witness nowMs :: after).filterMap PoolCall.arrival).Pairwise (· < ·)) :
    let pool := runCalls poolCall (.new cap) before
    let sent := poolCall pool (.submit body witness nowMs)
    let final := runCalls poolCall sent.1 after
    let newer := (replies poolCall sent.1 after).countP PoolReply.admitted
    let pending : PendingTx := { body, witness, receivedMs := nowMs }
    sent.2 = .submitted (.ok hash) →
      ((∀ blockHashes, .confirm blockHashes ∈ after → hash ∉ blockHashes) → newer < max cap 1 →
          final.inner[hash]? = some pending) ∧
        ((∀ blockHashes, .confirm blockHashes ∉ after) → max cap 1 ≤ newer → final.inner[hash]? ≠ some pending) := by
  intro pool sent final newer pending accepted
  have here := in_line_reached cap before (.submit body witness nowMs :: after) clock
  rw [List.filterMap_append] at clock
  have clockAfter := (List.pairwise_append.mp clock).2.1
  obtain ⟨answers, reached⟩ := in_line_run cap pool _ _ here clockAfter
  have distinct := List.Nodup.of_map _ here.queued.ordered.distinct
  have bounded := here.bounded
  generalize runCalls (queueCall (fifo cap)) [] before = queue at answers reached distinct bounded
  obtain ⟨first, rest⟩ := List.cons.inj answers
  obtain ⟨rfl, fresh, placed⟩ := queue_submit_admitted (fifo cap) queue body witness nowMs hash (first.symm.trans accepted)
  change replies poolCall sent.1 after = replies _ (queueCall (fifo cap) queue (.submit body witness nowMs)).1 after at rest
  change Queued final (runCalls _ (queueCall (fifo cap) queue (.submit body witness nowMs)).1 after) at reached
  rw [placed] at rest reached
  have counted : newer = (replies (queueCall (fifo cap)) (fifo cap queue (body.bodyHash, pending)) after).countP PoolReply.admitted := by
    simp only [newer, rest]
    rfl
  have stands : Stands (fifo cap queue (body.bodyHash, pending)) (body.bodyHash, pending) 0 := ⟨_, [], rfl, rfl⟩
  have later : ∀ arrival ∈ after.filterMap PoolCall.arrival, nowMs < arrival := (List.pairwise_cons.mp clockAfter).1
  constructor
  · intro spared few
    exact (reached.entries _ _).mp (fifo_keeps cap _ after _ 0 stands spared (by rw [Nat.zero_add, ← counted]; exact few))
  · intro unconfirmed many found
    have few := fifo_drops cap _ after _ 0 stands (fifo_nodup cap _ _ distinct fresh) (fifo_bounded cap _ _ bounded) later
      unconfirmed ((reached.entries _ _).mpr found)
    rw [Nat.zero_add, ← counted] at few
    exact Nat.not_lt.mpr many few

end

open Sample in
theorem second_newer_tx_displaces :
    let tx := fun nonce fee =>
      let key := List.replicate 32 7
      signedTx nonce (.transfer (.fromPubkey key) 0) fee 3 key (.inline key)
    let send := fun nonce fee nowMs => PoolCall.submit (tx nonce fee).1 (tx nonce fee).2 nowMs
    let sent := (poolCall (runCalls poolCall (.new 2) [send 0 1 5, .pullForBlock 1]) (send 1 9 10)).1
    let pending : PendingTx := { body := (tx 1 9).1, witness := (tx 1 9).2, receivedMs := 10 }
    (runCalls poolCall sent [.len, send 2 0 11]).inner[(tx 1 9).1.bodyHash]? = some pending ∧
      (runCalls poolCall sent [.len, send 2 0 11, send 3 0 12]).inner[(tx 1 9).1.bodyHash]? ≠ some pending := by
  intro tx send sent pending
  have reply : ∀ pool body witness, (poolCall pool (.submit body witness 10)).2 = .submitted (pool.submit body witness 10).2 :=
    fun _ _ _ => rfl
  have room : ((runCalls poolCall (.new 2) [send 0 1 5, .pullForBlock 1]).submit (tx 1 9).1 (tx 1 9).2 10).2 =
      .ok (tx 1 9).1.bodyHash := by decide +kernel
  have admitted := (reply _ (tx 1 9).1 (tx 1 9).2).trans (congrArg PoolReply.submitted room)
  have fewer : (replies poolCall sent [.len, send 2 0 11]).countP PoolReply.admitted = 1 := by decide +kernel
  have enough : (replies poolCall sent [.len, send 2 0 11, send 3 0 12]).countP PoolReply.admitted = 2 := by decide +kernel
  have kept := (pending_until_capacity 2 [send 0 1 5, .pullForBlock 1] [.len, send 2 0 11] (tx 1 9).1 (tx 1 9).2 10 _ (by decide)
    admitted).1
  have gone := (pending_until_capacity 2 [send 0 1 5, .pullForBlock 1] [.len, send 2 0 11, send 3 0 12] (tx 1 9).1 (tx 1 9).2 10 _
    (by decide) admitted).2
  exact ⟨kept (by simp [send]) (by rw [fewer]; decide), gone (by simp [send]) (by rw [enough]; decide)⟩

end PyGrove.Node
