import PyGrove.Lib.AgeQueue
import PyGrove.Lib.Steps
import PyGrove.Node.Mempool
import PyGrove.State.Cbor

set_option autoImplicit false

namespace PyGrove.Node

open Words Steps AgeQueue PyGrove.Core

namespace Mempool

def len (pool : Mempool) : Nat := pool.inner.size

def pendingHashes (pool : Mempool) : List (Bytes 32) := pool.inner.keys

theorem evict_room (pool : Mempool) (room : pool.len < pool.cap) : pool.evict = pool.inner := by
  rw [evict]
  exact if_neg (Nat.not_le.mpr room)

theorem submit_cap [HashFns] (pool : Mempool) (body : TxBody) (witness : Witness) (nowMs : U64) :
    (pool.submit body witness nowMs).1.cap = pool.cap := by
  rw [submit]
  split
  · rfl
  · split <;> rfl

end Mempool

inductive PoolCall where
  | submit (body : TxBody) (witness : Witness) (nowMs : U64)
  | pullForBlock (max : Nat)
  | confirm (blockHashes : List (Bytes 32))
  | len
  | pendingHashes

inductive PoolReply where
  | submitted (result : Except MempoolError (Bytes 32))
  | pulled (txs : List PendingTx)
  | confirmed
  | len (count : Nat)
  | hashes (pending : List (Bytes 32))

def PoolReply.admitted : PoolReply → Bool
  | .submitted (.ok _) => true
  | _ => false

abbrev PoolEntry := Bytes 32 × PendingTx

def arrivalCompare : PoolEntry → PoolEntry → Ordering :=
  compareLex (compareOn fun entry => entry.2.receivedMs.toNat) (compareOn fun entry => entry.1.toList)

instance : Std.TransCmp arrivalCompare :=
  inferInstanceAs (Std.TransCmp (compareLex (compareOn fun entry : PoolEntry => entry.2.receivedMs.toNat)
    (compareOn fun entry : PoolEntry => entry.1.toList)))

theorem hash_swap (a b : Bytes 32) : hashCompare b a = (hashCompare a b).swap := Std.OrientedCmp.eq_swap

def Older (a b : PoolEntry) : Prop := (arrivalCompare a b).isLE

instance : DecidableRel Older := fun a b => inferInstanceAs (Decidable ((arrivalCompare a b).isLE = true))

instance : IsTrans PoolEntry Older := ⟨fun _ _ _ => Std.TransCmp.isLE_trans⟩

instance : Std.Total Older where
  total := by
    intro a b
    have turned : arrivalCompare b a = (arrivalCompare a b).swap := Std.OrientedCmp.eq_swap
    rw [Older, Older, turned]
    cases arrivalCompare a b <;> decide

theorem older_iff (a b : PoolEntry) :
    Older a b ↔ a.2.receivedMs.toNat < b.2.receivedMs.toNat ∨
      a.2.receivedMs.toNat = b.2.receivedMs.toNat ∧ (hashCompare a.1 b.1).isLE := by
  rw [Older, arrivalCompare, hashCompare, compareLex, compareOn, compareOn, Ordering.isLE_then_iff_or, Nat.compare_eq_lt,
    Nat.compare_eq_eq]
  rfl

theorem older_level (a b : PoolEntry) (first : Older a b) (second : Older b a) : a.1 = b.1 := by
  rw [older_iff] at first second
  have forward : (hashCompare a.1 b.1).isLE := by
    rcases first with earlier | ⟨_, le⟩
    · omega
    · exact le
  have backward : (hashCompare b.1 a.1).isLE := by
    rcases second with earlier | ⟨_, le⟩
    · omega
    · exact le
  rw [hash_swap a.1 b.1] at backward
  exact Std.LawfulEqCmp.eq_of_compare (Ordering.eq_eq_of_isLE_of_isLE_swap forward backward)

section
variable [HashFns]

def poolCall (pool : Mempool) : PoolCall → Mempool × PoolReply
  | .submit body witness nowMs =>
      let (after, result) := pool.submit body witness nowMs
      (after, .submitted result)
  | .pullForBlock max => (pool, .pulled (pool.pullForBlock max))
  | .confirm blockHashes => (pool.confirm blockHashes, .confirmed)
  | .len => (pool, .len pool.len)
  | .pendingHashes => (pool, .hashes pool.pendingHashes)

def queueCall (place : List PoolEntry → PoolEntry → List PoolEntry) (queue : List PoolEntry) : PoolCall → List PoolEntry × PoolReply
  | .submit body witness nowMs =>
      if body.witnessHash ≠ witness.hash then (queue, .submitted (.error .witnessHashMismatch))
      else if ∃ entry ∈ queue, entry.1 = body.bodyHash then (queue, .submitted (.error .duplicate))
      else
        (place queue (body.bodyHash, { body, witness, receivedMs := nowMs }), .submitted (.ok body.bodyHash))
  | .pullForBlock max => (queue, .pulled (((queue.map Prod.snd).mergeSort Mempool.pullsBefore).take max))
  | .confirm blockHashes => (leave Prod.fst queue blockHashes, .confirmed)
  | .len => (queue, .len queue.length)
  | .pendingHashes => (queue, .hashes ((queue.map Prod.fst).mergeSort fun a b => (hashCompare a b).isLE))

inductive QueueStep (place : List PoolEntry → PoolEntry → List PoolEntry) (queue : List PoolEntry) :
    PoolCall → List PoolEntry × PoolReply → Prop where
  | admitted (body : TxBody) (witness : Witness) (nowMs : U64)
      (fresh : ∀ entry ∈ queue, entry.1 ≠ body.bodyHash) :
      QueueStep place queue (.submit body witness nowMs)
        (place queue (body.bodyHash, { body, witness, receivedMs := nowMs }), .submitted (.ok body.bodyHash))
  | confirmed (blockHashes : List (Bytes 32)) :
      QueueStep place queue (.confirm blockHashes) (leave Prod.fst queue blockHashes, .confirmed)
  | idle (call : PoolCall) (reply : PoolReply) (quiet : reply.admitted = false) : QueueStep place queue call (queue, reply)

theorem queue_call_step (place : List PoolEntry → PoolEntry → List PoolEntry) (queue : List PoolEntry) (call : PoolCall) :
    QueueStep place queue call (queueCall place queue call) := by
  cases call with
  | submit body witness nowMs =>
      rw [queueCall]
      split
      · exact .idle _ _ rfl
      · split
        · exact .idle _ _ rfl
        · rename_i fresh
          exact .admitted body witness nowMs fun entry member same => fresh ⟨entry, member, same⟩
  | confirm blockHashes => exact .confirmed blockHashes
  | pullForBlock max => exact .idle _ _ rfl
  | len => exact .idle _ _ rfl
  | pendingHashes => exact .idle _ _ rfl

theorem queue_submit_admitted (place : List PoolEntry → PoolEntry → List PoolEntry) (queue : List PoolEntry) (body : TxBody)
    (witness : Witness) (nowMs : U64) (hash : Bytes 32)
    (accepted : (queueCall place queue (.submit body witness nowMs)).2 = .submitted (.ok hash)) :
    hash = body.bodyHash ∧ (∀ entry ∈ queue, entry.1 ≠ body.bodyHash) ∧
      (queueCall place queue (.submit body witness nowMs)).1 =
        place queue (body.bodyHash, { body, witness, receivedMs := nowMs }) := by
  have step := queue_call_step place queue (.submit body witness nowMs)
  generalize queueCall place queue (.submit body witness nowMs) = result at step accepted ⊢
  cases step with
  | admitted _ _ _ fresh =>
      cases accepted
      exact ⟨rfl, fresh, rfl⟩
  | idle _ reply quiet =>
      dsimp only at accepted
      rw [accepted] at quiet
      cases quiet

theorem queue_call_bounded (cap : Nat) (queue : List PoolEntry) (call : PoolCall) (bounded : queue.length ≤ max cap 1) :
    (queueCall (arrive Older cap) queue call).1.length ≤ max cap 1 := by
  have step := queue_call_step (arrive Older cap) queue call
  generalize queueCall (arrive Older cap) queue call = result at step ⊢
  cases step with
  | admitted body witness nowMs fresh => exact length_arrive Older cap queue _ bounded
  | confirmed blockHashes => exact (leave_sublist Prod.fst queue blockHashes).length_le.trans bounded
  | idle _ reply quiet => exact bounded

structure Queued (pool : Mempool) (queue : List PoolEntry) : Prop where
  sound : pool.Sound
  entries : ∀ hash pending, (hash, pending) ∈ queue ↔ pool.inner[hash]? = some pending
  ordered : Ordered Prod.fst Older queue

theorem queued_new (cap : Nat) : Queued (.new cap) [] :=
  ⟨Mempool.sound_new cap, fun _ _ => by simp [Mempool.new], ⟨.nil, .nil⟩⟩

theorem queued_perm (pool : Mempool) (queue : List PoolEntry) (queued : Queued pool queue) :
    pool.inner.toList.Perm queue := by
  have keys : (pool.inner.toList.map Prod.fst).Nodup := by
    rw [Std.ExtTreeMap.map_fst_toList_eq_keys]
    exact Std.ExtTreeMap.nodup_keys
  rw [List.perm_ext_iff_of_nodup (List.Nodup.of_map _ keys) (List.Nodup.of_map _ queued.ordered.distinct)]
  rintro ⟨hash, pending⟩
  rw [Std.ExtTreeMap.mem_toList_iff_getElem?_eq_some, queued.entries]

theorem queued_len (pool : Mempool) (queue : List PoolEntry) (queued : Queued pool queue) : pool.len = queue.length := by
  rw [Mempool.len, ← Std.ExtTreeMap.length_toList, (queued_perm pool queue queued).length_eq]

theorem queued_contains (pool : Mempool) (queue : List PoolEntry) (queued : Queued pool queue) (hash : Bytes 32) :
    pool.inner.contains hash = true ↔ ∃ entry ∈ queue, entry.1 = hash := by
  rw [Std.ExtTreeMap.contains_eq_isSome_getElem?, Option.isSome_iff_exists]
  constructor
  · intro ⟨pending, found⟩
    exact ⟨(hash, pending), (queued.entries hash pending).mpr found, rfl⟩
  · rintro ⟨⟨_, pending⟩, member, rfl⟩
    exact ⟨pending, (queued.entries _ pending).mp member⟩

omit [HashFns] in
-- min_by_key keeps the first of several oldest, and the map lists them by hash.
theorem oldest_least (entries : List PoolEntry) (sorted : entries.Pairwise fun a b => hashCompare a.1 b.1 = .lt) :
    ∀ found, Mempool.oldest entries = some found → found ∈ entries ∧ ∀ other ∈ entries, Older found other := by
  induction entries with
  | nil => exact fun _ none => by cases none
  | cons first tail ih =>
      obtain ⟨before, rest⟩ := List.pairwise_cons.mp sorted
      intro found chosen
      rw [Mempool.oldest] at chosen
      cases later : Mempool.oldest tail with
      | none =>
          have empty : tail = [] := by
            cases tail with
            | nil => rfl
            | cons second others =>
                rw [Mempool.oldest] at later
                split at later
                · cases later
                · split at later <;> cases later
          rw [later] at chosen
          cases chosen
          subst empty
          exact ⟨by simp, by simp [refl]⟩
      | some other =>
          obtain ⟨member, least⟩ := ih rest other later
          rw [later] at chosen
          dsimp only at chosen
          split at chosen
          · rename_i younger
            cases chosen
            refine ⟨List.mem_cons_of_mem _ member, ?_⟩
            rw [List.forall_mem_cons]
            exact ⟨(older_iff ..).mpr (.inl younger), least⟩
          · rename_i notYounger
            cases chosen
            have toOther : Older first other := by
              rw [older_iff, before other member]
              rw [BitVec.lt_def] at notYounger
              have le := Nat.lt_or_eq_of_le (Nat.not_lt.mp notYounger)
              exact le.imp id fun same => ⟨same, rfl⟩
            refine ⟨by simp, ?_⟩
            rw [List.forall_mem_cons]
            exact ⟨refl first, fun entry present => trans_of Older toOther (least entry present)⟩

omit [HashFns] in
theorem oldest_some (entries : List PoolEntry) (nonempty : entries ≠ []) : ∃ found, Mempool.oldest entries = some found := by
  cases entries with
  | nil => exact absurd rfl nonempty
  | cons first tail =>
      rw [Mempool.oldest]
      split
      · exact ⟨_, rfl⟩
      · split <;> exact ⟨_, rfl⟩

theorem queued_evict (pool : Mempool) (queue : List PoolEntry) (queued : Queued pool queue) (hash : Bytes 32)
    (pending : PendingTx) : (hash, pending) ∈ makeRoom pool.cap queue ↔ pool.evict[hash]? = some pending := by
  have perm := queued_perm pool queue queued
  have size : pool.inner.size = queue.length := queued_len pool queue queued
  rw [makeRoom, Mempool.evict, size]
  by_cases full : pool.cap ≤ queue.length
  · rw [if_pos full, if_pos full]
    cases queue with
    | nil =>
        have empty : pool.inner.toList = [] := List.perm_nil.mp perm
        rw [empty, Mempool.oldest, List.tail_nil]
        exact queued.entries hash pending
    | cons first tail =>
        obtain ⟨found, chosen⟩ := oldest_some pool.inner.toList (by intro empty; rw [empty] at perm; cases List.nil_perm.mp perm)
        obtain ⟨member, least⟩ := oldest_least _ Std.ExtTreeMap.ordered_keys_toList found chosen
        have head := head_eldest Prod.fst Older (first :: tail) queued.ordered older_level found (perm.subset member)
          fun other present => least other (perm.symm.subset present)
        cases head
        rw [chosen]
        dsimp only
        rw [List.tail_cons, Std.ExtTreeMap.getElem?_erase]
        have fresh := (List.nodup_cons.mp queued.ordered.distinct).1
        by_cases same : hashCompare first.1 hash = .eq
        · rw [if_pos same]
          have equal := Std.LawfulEqCmp.eq_of_compare same
          constructor
          · intro present
            exact absurd (List.mem_map.mpr ⟨_, present, equal.symm⟩) fresh
          · exact fun none => by cases none
        · rw [if_neg same, ← queued.entries, List.mem_cons]
          constructor
          · exact .inr
          · rintro (rfl | present)
            · exact absurd Std.ReflCmp.compare_self same
            · exact present
  · rw [if_neg full, if_neg full]
    exact queued.entries hash pending

theorem queued_submit (pool : Mempool) (queue : List PoolEntry) (queued : Queued pool queue) (body : TxBody)
    (witness : Witness) (nowMs : U64) :
    (poolCall pool (.submit body witness nowMs)).2 = (queueCall (arrive Older pool.cap) queue (.submit body witness nowMs)).2 ∧
      Queued (poolCall pool (.submit body witness nowMs)).1 (queueCall (arrive Older pool.cap) queue (.submit body witness nowMs)).1 := by
  have kept := pool.sound_submit body witness nowMs queued.sound
  simp only [poolCall, queueCall, Mempool.submit] at kept ⊢
  by_cases mismatch : body.witnessHash ≠ witness.hash
  · rw [if_pos mismatch, if_pos mismatch]
    exact ⟨rfl, queued⟩
  · rw [if_neg mismatch] at kept ⊢
    rw [if_neg mismatch]
    by_cases known : pool.inner.contains body.bodyHash = true
    · rw [if_pos known, if_pos ((queued_contains pool queue queued body.bodyHash).mp known)]
      exact ⟨rfl, queued⟩
    · have fresh := (queued_contains pool queue queued body.bodyHash).not.mp known
      rw [if_neg known] at kept ⊢
      rw [if_neg fresh]
      refine ⟨rfl, kept, ?_, ?_⟩
      · intro hash pending
        dsimp only
        rw [mem_arrive, queued_evict pool queue queued hash pending, Std.ExtTreeMap.getElem?_insert]
        by_cases same : hashCompare body.bodyHash hash = .eq
        · rw [if_pos same]
          have equal := Std.LawfulEqCmp.eq_of_compare same
          have absent : pool.evict[hash]? ≠ some pending := by
            rw [Ne, ← queued_evict pool queue queued hash pending]
            intro present
            exact fresh ⟨_, (make_room_sublist _ _).subset present, equal.symm⟩
          simp only [Prod.mk.injEq, equal, true_and, Option.some.injEq, eq_comm (a := pending)]
          exact or_iff_left absent
        · rw [if_neg same]
          refine or_iff_right fun entry => same ?_
          rw [(Prod.mk.inj entry).1]
          exact Std.ReflCmp.compare_self
      · exact ordered_arrive Prod.fst Older pool.cap queue _ queued.ordered fun other present same => fresh ⟨other, present, same⟩

theorem queued_confirm (pool : Mempool) (queue : List PoolEntry) (queued : Queued pool queue)
    (blockHashes : List (Bytes 32)) : Queued (pool.confirm blockHashes) (leave Prod.fst queue blockHashes) := by
  refine ⟨pool.sound_confirm blockHashes queued.sound, ?_, ordered_leave Prod.fst Older queue blockHashes queued.ordered⟩
  intro hash pending
  rw [leave, List.mem_filter, Mempool.get_confirm, queued.entries, decide_eq_true_iff]
  by_cases landed : hash ∈ blockHashes
  · simp [landed]
  · simp [landed]

theorem pulls_before_level (a b : PendingTx) (first : Mempool.pullsBefore a b = true)
    (second : Mempool.pullsBefore b a = true) : a.body.bodyHash = b.body.bodyHash := by
  simp only [Mempool.pullsBefore] at first second
  by_cases fee : a.body.feeSat = b.body.feeSat
  · rw [if_pos fee, decide_eq_true_iff] at first
    rw [if_pos fee.symm, decide_eq_true_iff, hash_swap a.body.bodyHash] at second
    have level : hashCompare a.body.bodyHash b.body.bodyHash = .eq := by
      revert first second
      cases hashCompare a.body.bodyHash b.body.bodyHash <;> decide
    exact Std.LawfulEqCmp.eq_of_compare level
  · rw [if_neg fee, decide_eq_true_iff, BitVec.lt_def] at first
    rw [if_neg (Ne.symm fee), decide_eq_true_iff, BitVec.lt_def] at second
    omega

theorem queued_pull (pool : Mempool) (queue : List PoolEntry) (queued : Queued pool queue) (max : Nat) :
    pool.pullForBlock max = ((queue.map Prod.snd).mergeSort Mempool.pullsBefore).take max := by
  have perm := (queued_perm pool queue queued).map Prod.snd
  rw [Mempool.pullForBlock]
  congr 1
  have level : ∀ a b, a ∈ (pool.inner.toList.map Prod.snd).mergeSort Mempool.pullsBefore →
      b ∈ (queue.map Prod.snd).mergeSort Mempool.pullsBefore → Mempool.pullsBefore a b = true →
      Mempool.pullsBefore b a = true → a = b := by
    intro a b left right first second
    obtain ⟨⟨hashA, _⟩, memberA, rfl⟩ := List.mem_map.mp (List.mem_mergeSort.mp left)
    obtain ⟨⟨hashB, _⟩, memberB, rfl⟩ := List.mem_map.mp (List.mem_mergeSort.mp right)
    have foundA := Std.ExtTreeMap.mem_toList_iff_getElem?_eq_some.mp memberA
    have foundB := (queued.entries hashB _).mp memberB
    have same : hashA = hashB := by
      rw [← queued.sound.key hashA _ foundA, ← queued.sound.key hashB _ foundB]
      exact pulls_before_level _ _ first second
    subst same
    exact Option.some.inj (foundA.symm.trans foundB)
  exact List.Perm.eq_of_pairwise level
    (List.pairwise_mergeSort Mempool.pulls_before_trans Mempool.pulls_before_total _)
    (List.pairwise_mergeSort Mempool.pulls_before_trans Mempool.pulls_before_total _)
    (((List.mergeSort_perm _ _).trans perm).trans (List.mergeSort_perm _ _).symm)

theorem queued_hashes (pool : Mempool) (queue : List PoolEntry) (queued : Queued pool queue) :
    pool.pendingHashes = (queue.map Prod.fst).mergeSort fun a b => (hashCompare a b).isLE := by
  have perm := (queued_perm pool queue queued).map Prod.fst
  rw [Std.ExtTreeMap.map_fst_toList_eq_keys] at perm
  have level : ∀ a b : Bytes 32, (hashCompare a b).isLE = true → (hashCompare b a).isLE = true → a = b := by
    intro a b first second
    rw [hash_swap a b] at second
    exact Std.LawfulEqCmp.eq_of_compare (Ordering.eq_eq_of_isLE_of_isLE_swap first second)
  have ordered : pool.inner.keys.Pairwise fun a b => (hashCompare a b).isLE = true :=
    Std.ExtTreeMap.ordered_keys.imp fun less => by rw [less]; rfl
  have total : ∀ a b : Bytes 32, ((hashCompare a b).isLE || (hashCompare b a).isLE) = true := by
    intro a b
    rw [hash_swap a b]
    cases hashCompare a b <;> decide
  exact List.Perm.eq_of_pairwise (fun a b _ _ => level a b) ordered
    (List.pairwise_mergeSort (fun _ _ _ => Std.TransCmp.isLE_trans) total _) (perm.trans (List.mergeSort_perm _ _).symm)

theorem queued_call (pool : Mempool) (queue : List PoolEntry) (queued : Queued pool queue) (call : PoolCall) :
    (poolCall pool call).2 = (queueCall (arrive Older pool.cap) queue call).2 ∧
      Queued (poolCall pool call).1 (queueCall (arrive Older pool.cap) queue call).1 ∧ (poolCall pool call).1.cap = pool.cap := by
  cases call with
  | submit body witness nowMs =>
      obtain ⟨same, next⟩ := queued_submit pool queue queued body witness nowMs
      exact ⟨same, next, pool.submit_cap body witness nowMs⟩
  | pullForBlock max => exact ⟨congrArg PoolReply.pulled (queued_pull pool queue queued max), queued, rfl⟩
  | confirm blockHashes => exact ⟨rfl, queued_confirm pool queue queued blockHashes, rfl⟩
  | len => exact ⟨congrArg PoolReply.len (queued_len pool queue queued), queued, rfl⟩
  | pendingHashes => exact ⟨congrArg PoolReply.hashes (queued_hashes pool queue queued), queued, rfl⟩

theorem queued_run (cap : Nat) (pool : Mempool) (queue : List PoolEntry) (queued : Queued pool queue) (same : pool.cap = cap)
    (calls : List PoolCall) :
    replies poolCall pool calls = replies (queueCall (arrive Older cap)) queue calls ∧
      Queued (runCalls poolCall pool calls) (runCalls (queueCall (arrive Older cap)) queue calls) ∧
      (runCalls poolCall pool calls).cap = cap := by
  have step : ∀ pool queue call, Queued pool queue ∧ pool.cap = cap →
      (poolCall pool call).2 = (queueCall (arrive Older cap) queue call).2 ∧
        Queued (poolCall pool call).1 (queueCall (arrive Older cap) queue call).1 ∧ (poolCall pool call).1.cap = cap := by
    rintro pool queue call ⟨queued, rfl⟩
    exact queued_call pool queue queued call
  exact ⟨replies_simulated _ _ (fun pool queue => Queued pool queue ∧ pool.cap = cap) step pool queue ⟨queued, same⟩ calls,
    states_simulated _ _ (fun pool queue => Queued pool queue ∧ pool.cap = cap)
      (fun pool queue call related => (step pool queue call related).2) pool queue ⟨queued, same⟩ calls⟩

theorem queue_run_bounded (cap : Nat) (calls : List PoolCall) :
    (runCalls (queueCall (arrive Older cap)) [] calls).length ≤ max cap 1 :=
  run_calls_invariant (queueCall (arrive Older cap)) (fun queue => queue.length ≤ max cap 1) calls [] (Nat.zero_le _)
    fun queue call => queue_call_bounded cap queue call

theorem mempool_refines_queue (cap : Nat) (calls : List PoolCall) :
    replies poolCall (.new cap) calls = replies (queueCall (arrive Older cap)) [] calls ∧
      (runCalls poolCall (.new cap) calls).len ≤ max cap 1 := by
  obtain ⟨answers, queued, _⟩ := queued_run cap (.new cap) [] (queued_new cap) rfl calls
  refine ⟨answers, ?_⟩
  rw [queued_len _ _ queued]
  exact queue_run_bounded cap calls

def PoolCall.arrival : PoolCall → Option U64
  | .submit _ _ nowMs => some nowMs
  | _ => none

def fifo (cap : Nat) (queue : List PoolEntry) (entry : PoolEntry) : List PoolEntry := makeRoom cap queue ++ [entry]

omit [HashFns] in
theorem arrivals_cons (call : PoolCall) (tail : List PoolCall) (nowMs : U64)
    (comes : nowMs ∈ tail.filterMap PoolCall.arrival) : nowMs ∈ (call :: tail).filterMap PoolCall.arrival :=
  ((List.sublist_cons_self call tail).filterMap PoolCall.arrival).subset comes

theorem fifo_call_entry (cap : Nat) (queue : List PoolEntry) (call : PoolCall) (entry : PoolEntry)
    (member : entry ∈ (queueCall (fifo cap) queue call).1) : entry ∈ queue ∨ call.arrival = some entry.2.receivedMs := by
  have step := queue_call_step (fifo cap) queue call
  generalize queueCall (fifo cap) queue call = result at step member
  cases step with
  | idle _ reply quiet => exact .inl member
  | confirmed blockHashes => exact .inl ((leave_sublist Prod.fst queue blockHashes).subset member)
  | admitted body witness nowMs fresh =>
      rcases List.mem_append.mp member with earlier | new
      · exact .inl ((make_room_sublist cap queue).subset earlier)
      · rw [List.mem_singleton.mp new]
        exact .inr rfl

theorem queue_in_order (cap : Nat) (queue : List PoolEntry) (calls : List PoolCall)
    (clock : (calls.filterMap PoolCall.arrival).Pairwise (· < ·))
    (past : ∀ entry ∈ queue, ∀ later ∈ calls.filterMap PoolCall.arrival, entry.2.receivedMs < later) :
    replies (queueCall (arrive Older cap)) queue calls = replies (queueCall (fifo cap)) queue calls ∧
      runCalls (queueCall (arrive Older cap)) queue calls = runCalls (queueCall (fifo cap)) queue calls := by
  induction calls generalizing queue with
  | nil => exact ⟨rfl, rfl⟩
  | cons call tail ih =>
      have step : (queueCall (arrive Older cap) queue call) = queueCall (fifo cap) queue call := by
        cases call with
        | submit body witness nowMs =>
            rw [List.filterMap_cons_some (by rfl : PoolCall.arrival (.submit body witness nowMs) = some nowMs)] at past
            have youngest : arrive Older cap queue (body.bodyHash, { body, witness, receivedMs := nowMs }) =
                fifo cap queue (body.bodyHash, { body, witness, receivedMs := nowMs }) := by
              apply arrive_last
              intro other member
              have before := BitVec.lt_def.mp (past other member nowMs (by simp))
              rw [older_iff]
              dsimp only
              omega
            rw [queueCall, queueCall, youngest]
        | _ => rfl
      have earlier : ∀ entry ∈ (queueCall (fifo cap) queue call).1, ∀ later ∈ tail.filterMap PoolCall.arrival,
          entry.2.receivedMs < later := by
        intro entry member later comes
        rcases fifo_call_entry cap queue call entry member with was | came
        · exact past entry was later (arrivals_cons call tail later comes)
        · rw [List.filterMap_cons_some came] at clock
          exact (List.pairwise_cons.mp clock).1 later comes
      have rest := clock.sublist ((List.sublist_cons_self call tail).filterMap PoolCall.arrival)
      obtain ⟨answers, final⟩ := ih _ rest earlier
      rw [replies, replies, step]
      refine ⟨congrArg _ answers, ?_⟩
      show runCalls (queueCall (arrive Older cap)) (queueCall (arrive Older cap) queue call).1 tail = _
      rw [step]
      exact final

theorem mempool_is_fifo (cap : Nat) (calls : List PoolCall)
    (clock : (calls.filterMap PoolCall.arrival).Pairwise (· < ·)) :
    replies poolCall (.new cap) calls = replies (queueCall (fifo cap)) [] calls := by
  rw [(queued_run cap (.new cap) [] (queued_new cap) rfl calls).1, (queue_in_order cap [] calls clock (by simp)).1]

end

open Sample in
theorem second_tx_evicts_first :
    let key := List.replicate 32 7
    let first := signedTx 0 (.transfer (.fromPubkey key) 0) 0 3 key (.inline key)
    let second := signedTx 1 (.transfer (.fromPubkey key) 0) 0 3 key (.inline key)
    let calls : List PoolCall := [.submit first.1 first.2 10, .submit second.1 second.2 11, .pullForBlock 8, .len]
    replies poolCall (.new 1) calls = replies (queueCall (fifo 1)) [] calls :=
  mempool_is_fifo 1 _ (by decide)

end PyGrove.Node
