import Std.Data.ExtTreeMap
import PyGrove.Core.Tx

set_option autoImplicit false

namespace PyGrove.Node

open Words PyGrove.Core

def hashCompare : Bytes 32 → Bytes 32 → Ordering := compareOn List.Vector.toList

instance : Std.TransCmp hashCompare := inferInstanceAs (Std.TransCmp (compareOn List.Vector.toList))

instance : Std.LawfulEqCmp hashCompare where
  eq_of_compare := by
    intro a b same
    rw [hashCompare, compareOn, Std.LawfulEqCmp.compare_eq_iff_eq] at same
    exact List.Vector.eq a b same

structure PendingTx where
  body : TxBody
  witness : Witness
  receivedMs : U64

inductive MempoolError where
  | witnessHashMismatch
  | duplicate
deriving DecidableEq

structure Mempool where
  inner : Std.ExtTreeMap (Bytes 32) PendingTx hashCompare
  cap : Nat

namespace Mempool

def new (cap : Nat) : Mempool := ⟨∅, cap⟩

-- min_by_key of received_ms: of several oldest the first in key order.
def oldest : List (Bytes 32 × PendingTx) → Option (Bytes 32 × PendingTx)
  | [] => none
  | entry :: tail =>
      match oldest tail with
      | none => some entry
      | some other => if other.2.receivedMs < entry.2.receivedMs then some other else some entry

def evict (pool : Mempool) : Std.ExtTreeMap (Bytes 32) PendingTx hashCompare :=
  if pool.cap ≤ pool.inner.size then
    match oldest pool.inner.toList with
    | none => pool.inner
    | some (oldestHash, _) => pool.inner.erase oldestHash
  else pool.inner

def submit [HashFns] (pool : Mempool) (body : TxBody) (witness : Witness) (nowMs : U64) :
    Mempool × Except MempoolError (Bytes 32) :=
  if body.witnessHash ≠ witness.hash then (pool, .error .witnessHashMismatch)
  else if pool.inner.contains body.bodyHash then (pool, .error .duplicate)
  else
    ({ pool with inner := pool.evict.insert body.bodyHash { body, witness, receivedMs := nowMs } }, .ok body.bodyHash)

def pullsBefore [HashFns] (a b : PendingTx) : Bool :=
  if a.body.feeSat = b.body.feeSat then hashCompare a.body.bodyHash b.body.bodyHash ≠ .gt
  else b.body.feeSat < a.body.feeSat

def pullForBlock [HashFns] (pool : Mempool) (max : Nat) : List PendingTx :=
  ((pool.inner.toList.map Prod.snd).mergeSort pullsBefore).take max

def confirm (pool : Mempool) (blockHashes : List (Bytes 32)) : Mempool :=
  { pool with inner := blockHashes.foldl (fun inner hash => inner.erase hash) pool.inner }

theorem get_confirm (pool : Mempool) (blockHashes : List (Bytes 32)) (hash : Bytes 32) :
    (pool.confirm blockHashes).inner[hash]? = if hash ∈ blockHashes then none else pool.inner[hash]? := by
  rw [confirm]
  induction blockHashes generalizing pool with
  | nil => simp
  | cons first tail ih =>
      rw [List.foldl_cons, ih { pool with inner := pool.inner.erase first }, Std.ExtTreeMap.getElem?_erase]
      by_cases same : hash = first
      · simp [same]
      · have apart : ¬ hashCompare first hash = .eq := fun equal => same (Std.LawfulEqCmp.eq_of_compare equal).symm
        simp [same, apart]

section
variable [HashFns]

structure Sound (pool : Mempool) : Prop where
  key : ∀ (hash : Bytes 32) (pending : PendingTx), pool.inner[hash]? = some pending → pending.body.bodyHash = hash
  witness : ∀ (hash : Bytes 32) (pending : PendingTx), pool.inner[hash]? = some pending → pending.witness.hash = pending.body.witnessHash

theorem sound_of_subset (pool smaller : Mempool) (sound : pool.Sound)
    (kept : ∀ (hash : Bytes 32) (pending : PendingTx), smaller.inner[hash]? = some pending → pool.inner[hash]? = some pending) : smaller.Sound :=
  ⟨fun hash pending found => sound.key hash pending (kept hash pending found),
    fun hash pending found => sound.witness hash pending (kept hash pending found)⟩

theorem sound_new (cap : Nat) : (new cap).Sound :=
  ⟨fun _ _ found => by simp [new] at found, fun _ _ found => by simp [new] at found⟩

theorem sound_confirm (pool : Mempool) (blockHashes : List (Bytes 32)) (sound : pool.Sound) :
    (pool.confirm blockHashes).Sound := by
  apply sound_of_subset pool _ sound
  intro hash pending found
  rw [get_confirm] at found
  split at found
  · cases found
  · exact found

omit [HashFns] in
theorem get_evict (pool : Mempool) (hash : Bytes 32) (pending : PendingTx) (found : pool.evict[hash]? = some pending) :
    pool.inner[hash]? = some pending := by
  rw [evict] at found
  split at found
  · split at found
    · exact found
    · rw [Std.ExtTreeMap.getElem?_erase] at found
      split at found
      · cases found
      · exact found
  · exact found

theorem sound_submit (pool : Mempool) (body : TxBody) (witness : Witness) (nowMs : U64) (sound : pool.Sound) :
    (pool.submit body witness nowMs).1.Sound := by
  rw [submit]
  by_cases mismatch : body.witnessHash ≠ witness.hash
  · rw [if_pos mismatch]
    exact sound
  · rw [if_neg mismatch]
    split
    · exact sound
    · have added : ∀ (hash : Bytes 32) (pending : PendingTx),
          (pool.evict.insert body.bodyHash { body, witness, receivedMs := nowMs })[hash]? = some pending →
            (hash = body.bodyHash ∧ pending = { body, witness, receivedMs := nowMs }) ∨
              pool.inner[hash]? = some pending := by
        intro hash pending found
        rw [Std.ExtTreeMap.getElem?_insert] at found
        split at found
        · rename_i same
          exact .inl ⟨(Std.LawfulEqCmp.eq_of_compare same).symm, (Option.some.inj found).symm⟩
        · exact .inr (pool.get_evict hash pending found)
      constructor
      · intro hash pending found
        rcases added hash pending found with ⟨rfl, rfl⟩ | earlier
        · rfl
        · exact sound.key hash pending earlier
      · intro hash pending found
        rcases added hash pending found with ⟨rfl, rfl⟩ | earlier
        · exact (not_not.mp mismatch).symm
        · exact sound.witness hash pending earlier

theorem length_pull (pool : Mempool) (max : Nat) : (pool.pullForBlock max).length ≤ max := by
  rw [pullForBlock, List.length_take]
  exact Nat.min_le_left ..

theorem pulled_pending (pool : Mempool) (max : Nat) (pending : PendingTx) (pulled : pending ∈ pool.pullForBlock max) :
    ∃ hash : Bytes 32, pool.inner[hash]? = some pending := by
  have sorted := List.mem_mergeSort.mp (List.mem_of_mem_take pulled)
  obtain ⟨⟨hash, _⟩, member, rfl⟩ := List.mem_map.mp sorted
  exact ⟨hash, Std.ExtTreeMap.mem_toList_iff_getElem?_eq_some.mp member⟩

theorem pulls_before_total (a b : PendingTx) : (pullsBefore a b || pullsBefore b a) = true := by
  simp only [pullsBefore]
  by_cases fee : a.body.feeSat = b.body.feeSat
  · rw [if_pos fee, if_pos fee.symm, Bool.or_eq_true, decide_eq_true_iff, decide_eq_true_iff]
    by_cases after : hashCompare a.body.bodyHash b.body.bodyHash = .gt
    · right
      rw [Std.OrientedCmp.gt_iff_lt] at after
      rw [after]
      decide
    · exact .inl after
  · rw [if_neg fee, if_neg (Ne.symm fee), Bool.or_eq_true, decide_eq_true_iff, decide_eq_true_iff]
    rw [← BitVec.toNat_inj] at fee
    rw [BitVec.lt_def, BitVec.lt_def]
    omega

theorem pulls_before_trans (a b c : PendingTx) (first : pullsBefore a b = true) (second : pullsBefore b c = true) :
    pullsBefore a c = true := by
  simp only [pullsBefore] at first second ⊢
  by_cases ab : a.body.feeSat = b.body.feeSat
  · by_cases bc : b.body.feeSat = c.body.feeSat
    · rw [if_pos ab, decide_eq_true_iff] at first
      rw [if_pos bc, decide_eq_true_iff] at second
      rw [if_pos (ab.trans bc), decide_eq_true_iff]
      exact Std.TransCmp.le_trans first second
    · rw [if_neg bc] at second
      rw [if_neg (ab ▸ bc), ab]
      exact second
  · rw [if_neg ab, decide_eq_true_iff, BitVec.lt_def] at first
    have below : c.body.feeSat.toNat < a.body.feeSat.toNat := by
      by_cases bc : b.body.feeSat = c.body.feeSat
      · rwa [← bc]
      · rw [if_neg bc, decide_eq_true_iff, BitVec.lt_def] at second
        omega
    rw [if_neg fun same => by rw [same] at below; exact Nat.lt_irrefl _ below, decide_eq_true_iff, BitVec.lt_def]
    exact below

theorem pull_sorted (pool : Mempool) (max : Nat) : (pool.pullForBlock max).Pairwise fun a b => pullsBefore a b = true :=
  (List.pairwise_mergeSort pulls_before_trans pulls_before_total _).sublist (List.take_sublist ..)

theorem pull_distinct (pool : Mempool) (max : Nat) (sound : pool.Sound) :
    ((pool.pullForBlock max).map fun pending => pending.body.bodyHash).Nodup := by
  have keys : (pool.inner.toList.map Prod.snd).map (fun pending => pending.body.bodyHash) = pool.inner.keys := by
    rw [List.map_map, ← Std.ExtTreeMap.map_fst_toList_eq_keys]
    apply List.map_congr_left
    rintro ⟨hash, pending⟩ member
    exact sound.key hash pending (Std.ExtTreeMap.mem_toList_iff_getElem?_eq_some.mp member)
  have sorted := (List.mergeSort_perm (pool.inner.toList.map Prod.snd) pullsBefore).map fun pending => pending.body.bodyHash
  rw [keys] at sorted
  exact (sorted.nodup_iff.mpr Std.ExtTreeMap.nodup_keys).sublist ((List.take_sublist ..).map _)

theorem confirmed_not_pulled (pool : Mempool) (blockHashes : List (Bytes 32)) (max : Nat) (sound : pool.Sound)
    (pending : PendingTx) (pulled : pending ∈ (pool.confirm blockHashes).pullForBlock max) :
    pending.body.bodyHash ∉ blockHashes := by
  obtain ⟨hash, found⟩ := (pool.confirm blockHashes).pulled_pending max pending pulled
  rw [(sound_confirm pool blockHashes sound).key hash pending found]
  intro landed
  rw [get_confirm, if_pos landed] at found
  cases found

omit [HashFns] in
theorem single_entry (hash : Bytes 32) (pending : PendingTx) :
    ((∅ : Std.ExtTreeMap (Bytes 32) PendingTx hashCompare).insert hash pending).toList = [(hash, pending)] := by
  have member : (hash, pending) ∈ ((∅ : Std.ExtTreeMap (Bytes 32) PendingTx hashCompare).insert hash pending).toList := by
    rw [Std.ExtTreeMap.mem_toList_iff_getElem?_eq_some]
    simp
  have size : ((∅ : Std.ExtTreeMap (Bytes 32) PendingTx hashCompare).insert hash pending).toList.length = 1 := by
    rw [Std.ExtTreeMap.length_toList, Std.ExtTreeMap.size_insert]
    simp
  obtain ⟨item, only⟩ := List.length_eq_one_iff.mp size
  rw [only, List.mem_singleton] at member
  rw [only, member]

theorem submit_first (cap : Nat) (body : TxBody) (witness : Witness) (nowMs : U64) (hashed : body.witnessHash = witness.hash) :
    (new cap).submit body witness nowMs =
      (⟨(∅ : Std.ExtTreeMap (Bytes 32) PendingTx hashCompare).insert body.bodyHash { body, witness, receivedMs := nowMs }, cap⟩,
        .ok body.bodyHash) := by
  have nothing : (new cap).evict = ∅ := by
    rw [evict]
    split <;> rfl
  have fresh : ¬ (new cap).inner.contains body.bodyHash = true := by simp [new]
  rw [submit, if_neg (not_not.mpr hashed), if_neg fresh, nothing]
  rfl

theorem pull_first (cap max : Nat) (body : TxBody) (witness : Witness) (nowMs : U64)
    (hashed : body.witnessHash = witness.hash) (positive : 0 < max) :
    ((new cap).submit body witness nowMs).1.pullForBlock max = [{ body, witness, receivedMs := nowMs }] := by
  rw [submit_first cap body witness nowMs hashed, pullForBlock, single_entry, List.map_cons, List.map_nil,
    List.mergeSort_singleton, List.take_of_length_le positive]

end

end Mempool

end PyGrove.Node
