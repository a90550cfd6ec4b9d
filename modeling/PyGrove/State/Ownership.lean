import PyGrove.State.Cbor
import PyGrove.State.ApplySteps

set_option autoImplicit false

namespace PyGrove.State

open Words Steps PyGrove.Core Crypto

theorem word_lt_of_lt_of_le (a b c : U128) (less : a < b) (bounded : b ≤ c) : a < c :=
  BitVec.lt_def.mpr (Nat.lt_of_lt_of_le (BitVec.lt_def.mp less) (BitVec.le_def.mp bounded))

theorem saturating_credit_le (balance amount : U128) : balance ≤ saturatingAdd balance amount := by
  have bound := balance.isLt
  rw [BitVec.le_def, to_nat_saturating_add]
  omega

section
variable {σ : Type} [StateStore σ] [StateCbor]

-- Pass 2 read at one account: the sender is debited first and the recipient,
-- which may be the sender, is credited on what the debit left.
theorem apply_staged_account (store next : σ) (tx : StagedTx) (applied : applyStaged store tx = .ok next) :
    ∃ required : U128, required ≤ (Accounts.loadOrDefault store tx.fromAccount).balance ∧
      ∃ middle : AccountId → Account,
        (∀ id, middle id = if tx.fromAccount = id then debitSender (Accounts.loadOrDefault store id) required tx
          else Accounts.loadOrDefault store id) ∧
        ∀ id, Accounts.loadOrDefault next id = if tx.toAccount = id then
            { middle id with balance := saturatingAdd (middle id).balance tx.amount }
          else middle id := by
  obtain ⟨required, _, _, enough, debited, debitedEq, nextEq⟩ := apply_staged_ok store next tx applied
  refine ⟨required, BitVec.le_def.mpr enough, Accounts.loadOrDefault debited, ?_, ?_⟩
  · intro id
    rw [debitedEq, Accounts.load_or_default_save]
    by_cases same : tx.fromAccount = id
    · subst same
      rw [if_pos rfl]
    · rw [if_neg same, if_neg same]
  · intro id
    rw [nextEq, Accounts.load_or_default_save]
    by_cases same : tx.toAccount = id
    · subst same
      rw [if_pos rfl]
    · rw [if_neg same, if_neg same]

end

section
variable {σ : Type} [StateStore σ] [StateCbor] [HashFns] [SigFns]

theorem spends_accounts (store : σ) (block : Block) (rel : AccountId → Account → Account → Prop)
    (refl : ∀ id acct, rel id acct acct)
    (trans : ∀ id a b c, rel id a b → rel id b c → rel id a c)
    (debit : ∀ item ∈ block.body.txs.zipIdx, ∀ tx, Staged store block.body.witnesses item tx →
      ∀ acct required, required ≤ acct.balance → rel tx.fromAccount acct (debitSender acct required tx))
    (credit : ∀ id (acct : Account) (balance : U128), acct.balance ≤ balance → rel id acct { acct with balance })
    (id : AccountId) (fees : U128) (staged : List StagedTx)
    (valid : validateAll store block.body.witnesses 0 block.body.txs.zipIdx = .ok (fees, staged)) :
    rel id (Accounts.loadOrDefault store id) (Accounts.loadOrDefault (runSteps applyStaged store staged).1 id) := by
  obtain ⟨all, _⟩ := validate_block_ok store block fees staged valid
  apply run_steps_relation applyStaged
    (fun a b => rel id (Accounts.loadOrDefault a id) (Accounts.loadOrDefault b id)) staged store
  · exact fun state => refl id _
  · exact fun a b c => trans id _ _ _
  · intro tx member state next applied
    obtain ⟨item, itemMember, stagedItem⟩ : ∃ item ∈ block.body.txs.zipIdx,
        Staged store block.body.witnesses item tx := by
      obtain ⟨i, bound, atIndex⟩ := List.mem_iff_getElem.mp member
      have itemBound : i < block.body.txs.zipIdx.length := all.length_eq ▸ bound
      have paired := all.get itemBound bound
      rw [List.get_eq_getElem, List.get_eq_getElem, atIndex] at paired
      exact ⟨_, List.getElem_mem itemBound, paired⟩
    obtain ⟨required, enough, middle, middleEq, nextEq⟩ := apply_staged_account state next tx applied
    have debited : rel id (Accounts.loadOrDefault state id) (middle id) := by
      rw [middleEq]
      by_cases same : tx.fromAccount = id
      · subst same
        rw [if_pos rfl]
        exact debit item itemMember tx stagedItem _ required enough
      · rw [if_neg same]
        exact refl id _
    refine trans id _ _ _ debited ?_
    rw [nextEq]
    by_cases same : tx.toAccount = id
    · rw [if_pos same]
      exact credit id (middle id) _ (saturating_credit_le ..)
    · rw [if_neg same]
      exact refl id _

-- The writers of an account record are the debit of a validated sender and
-- the credits. A relation that both respect holds between every record before
-- a block and after it, also when the block fails half way.
theorem apply_block_accounts (store : σ) (block : Block) (reward : U128) (rel : AccountId → Account → Account → Prop)
    (refl : ∀ id acct, rel id acct acct)
    (trans : ∀ id a b c, rel id a b → rel id b c → rel id a c)
    (debit : ∀ item ∈ block.body.txs.zipIdx, ∀ tx, Staged store block.body.witnesses item tx →
      ∀ acct required, required ≤ acct.balance → rel tx.fromAccount acct (debitSender acct required tx))
    (credit : ∀ id (acct : Account) (balance : U128), acct.balance ≤ balance → rel id acct { acct with balance })
    (id : AccountId) :
    rel id (Accounts.loadOrDefault store id) (Accounts.loadOrDefault (applyBlock store block reward).1 id) := by
  have spendStep := spends_accounts store block rel refl trans debit credit id
  have outcome := apply_block_outcome store block reward
  generalize applyBlock store block reward = result at outcome
  cases outcome with
  | rejected e invalid => exact refl id _
  | spendFailed fees staged spent e valid spend =>
      have related := spendStep fees staged valid
      rwa [spend] at related
  | effectFailed fees staged spent affected e valid spend effects =>
      have related := spendStep fees staged valid
      have kept := effects_run_load block.header spent affected _ _ effects id
      rw [spend] at related
      dsimp only at related ⊢
      rwa [kept]
  | coinbaseFailed fees staged spent affected e valid spend effects coinbase =>
      have related := spendStep fees staged valid
      have kept := effects_run_load block.header spent affected _ _ effects id
      rw [spend] at related
      dsimp only at related ⊢
      rwa [kept]
  | accepted fees minted staged spent affected paid valid spend effects coinbase =>
      have related := spendStep fees staged valid
      have kept := effects_run_load block.header spent affected _ _ effects id
      rw [spend] at related
      dsimp only at related ⊢
      obtain ⟨_, balance, balanceEq, paidEq⟩ := pay_coinbase_ok block.header affected paid reward fees minted coinbase
      rw [epilogue_load, paidEq, Accounts.load_or_default_save]
      by_cases same : AccountId.fromCoinbase block.header.coinbase = id
      · rw [if_pos same, same, kept]
        refine trans id _ _ _ related (credit id _ balance ?_)
        rw [BitVec.le_def, balanceEq, same, kept]
        omega
      · rw [if_neg same, kept]
        exact related

-- Every committed key is one of the given keys and derives to the id that
-- holds it: Known witnesses rest on this, for they are not checked again.
def KeysFrom (keys : Set (List U8)) (store : σ) : Prop :=
  ∀ id, (Accounts.loadOrDefault store id).pubkey ≠ [] →
    (Accounts.loadOrDefault store id).pubkey ∈ keys ∧
      AccountId.fromPubkey (Accounts.loadOrDefault store id).pubkey = id

def inlineKeys (block : Block) : Set (List U8) :=
  {bytes | ∃ witness ∈ block.body.witnesses, witness.pubkey = .inline bytes}

omit [SigFns] in
theorem resolved_key (idx : Nat) (store : σ) (tx : TxBody) (witness : Witness) (bytes : List U8)
    (resolved : resolvePubkey idx store tx witness = .ok bytes) :
    (witness.pubkey = .inline bytes ∧ AccountId.fromPubkey bytes = tx.fromAccount) ∨
      ((∃ id, witness.pubkey = .known id) ∧ bytes = (Accounts.loadOrDefault store tx.fromAccount).pubkey ∧
        bytes ≠ [] ∧ witness.sigAlgo = (Accounts.loadOrDefault store tx.fromAccount).sigAlgo) := by
  simp only [resolvePubkey] at resolved
  split at resolved
  · rename_i inlined shape
    split at resolved
    · cases resolved
    · rename_i derives
      cases resolved
      exact .inl ⟨shape, not_not.mp derives⟩
  · rename_i id shape
    split at resolved
    · cases resolved
    · rename_i acct found
      split at resolved
      · cases resolved
      · rename_i committed
        split at resolved
        · cases resolved
        · rename_i sameAlgo
          cases resolved
          have loaded : Accounts.loadOrDefault store tx.fromAccount = acct := by
            rw [Accounts.loadOrDefault, found, Option.getD_some]
          refine .inr ⟨⟨id, shape⟩, by rw [loaded], ?_, ?_⟩
          · intro empty
            exact committed (by rw [empty]; rfl)
          · rw [loaded]
            exact (not_not.mp sameAlgo).symm

omit [SigFns] in
theorem resolved_key_from (keys : Set (List U8)) (idx : Nat) (store : σ) (tx : TxBody) (witness : Witness)
    (bytes : List U8) (invariant : KeysFrom keys store) (resolved : resolvePubkey idx store tx witness = .ok bytes)
    (brought : ∀ key, witness.pubkey = .inline key → key ∈ keys) :
    bytes ∈ keys ∧ AccountId.fromPubkey bytes = tx.fromAccount := by
  rcases resolved_key idx store tx witness bytes resolved with ⟨shape, derives⟩ | ⟨_, committed, present, _⟩
  · exact ⟨brought bytes shape, derives⟩
  · rw [committed] at present ⊢
    exact invariant tx.fromAccount present

theorem keys_from_block (keys : Set (List U8)) (store : σ) (block : Block) (reward : U128)
    (invariant : KeysFrom keys store) (brought : inlineKeys block ⊆ keys) :
    KeysFrom keys (applyBlock store block reward).1 := by
  intro id
  have step := apply_block_accounts store block reward
    (fun id before after => (before.pubkey ≠ [] → before.pubkey ∈ keys ∧ AccountId.fromPubkey before.pubkey = id) →
      after.pubkey ≠ [] → after.pubkey ∈ keys ∧ AccountId.fromPubkey after.pubkey = id)
    (fun id acct held => held)
    (fun id a b c first second held => second (first held))
    ?_ (fun id acct balance _ held => held) id
  · exact step (invariant id)
  · intro item _ tx staged acct required _ held
    obtain ⟨_, witness, present, _, validated⟩ := staged
    unfold debitSender
    dsimp only
    by_cases unset : acct.pubkey.isEmpty
    · -- The first tx of the account commits the key it was verified with.
      rw [if_pos unset]
      intro _
      rw [validated.sender]
      exact resolved_key_from keys tx.idx store item.1 witness tx.pubkeyBytes invariant validated.key
        (fun key shape => brought ⟨witness, List.mem_of_getElem? present, shape⟩)
    · rw [if_neg unset]
      exact held

def Authorized (block : Block) (id : AccountId) : Prop :=
  ∃ (i : Nat) (tx : TxBody) (witness : Witness) (pk : List U8),
    block.body.txs[i]? = some tx ∧ block.body.witnesses[i]? = some witness ∧ tx.fromAccount = id ∧
      AccountId.fromPubkey pk = id ∧
      SigFns.verify witness.sigAlgo pk witness.sig tx.signingHash.toList = .ok ()

def Spent (before after : Account) : Prop := after.balance < before.balance ∨ after.nonce ≠ before.nonce

theorem apply_block_authorized (store : σ) (block : Block) (reward : U128) (invariant : KeysFrom Set.univ store)
    (id : AccountId)
    (spent : Spent (Accounts.loadOrDefault store id) (Accounts.loadOrDefault (applyBlock store block reward).1 id)) :
    Authorized block id := by
  refine apply_block_accounts store block reward (fun id before after => Spent before after → Authorized block id)
    ?_ ?_ ?_ ?_ id spent
  · intro id acct same
    rcases same with less | moved
    · exact absurd less (BitVec.lt_irrefl _)
    · exact absurd rfl moved
  · intro id a b c first second total
    by_cases early : Spent a b
    · exact first early
    · apply second
      simp only [Spent, not_or, BitVec.not_lt, not_not] at early
      rcases total with less | moved
      · exact .inl (word_lt_of_lt_of_le _ _ _ less early.1)
      · exact .inr (early.2 ▸ moved)
  · intro item member tx staged acct required _ _
    obtain ⟨_, witness, present, _, validated⟩ := staged
    have derived := (resolved_key_from Set.univ tx.idx store item.1 witness tx.pubkeyBytes invariant validated.key
      (fun key _ => Set.mem_univ key)).2
    have position := List.mem_zipIdx_iff_getElem?.mp member
    exact ⟨item.2, item.1, witness, tx.pubkeyBytes, position, present, validated.sender.symm,
      derived.trans validated.sender.symm, validated.signed⟩
  · intro id acct balance credited changed
    rcases changed with less | moved
    · exact absurd (word_lt_of_lt_of_le _ _ _ less credited) (BitVec.lt_irrefl _)
    · exact absurd rfl moved

end

section
variable [StateCbor] [HashFns] [SigFns]

def applyCall (state : MemState) (call : Block × U128) : MemState × Except ApplyError ApplyOutput :=
  applyBlock state call.1 call.2

omit [SigFns] in
theorem keys_from_new (keys : Set (List U8)) : KeysFrom keys MemState.new := by
  intro id present
  rw [load_new] at present
  exact absurd rfl present

theorem run_no_theft (run : List (Block × U128)) :
    Along applyCall (fun state call => ∀ id,
      Spent (Accounts.loadOrDefault state id) (Accounts.loadOrDefault (applyCall state call).1 id) →
        Authorized call.1 id) MemState.new run := by
  apply along_of_invariant applyCall (KeysFrom Set.univ) _ MemState.new run (keys_from_new Set.univ)
  intro state call _ invariant
  exact ⟨fun id => apply_block_authorized state call.1 call.2 invariant id,
    keys_from_block Set.univ state call.1 call.2 invariant (Set.subset_univ _)⟩

def AllAccepted (start : MemState) (run : List (Block × U128)) : Prop :=
  Along applyCall (fun state call => (applyCall state call).2.isOk = true) start run

def KeyBound (store : MemState) (block : Block) : Prop :=
  ∀ (i : Nat) (tx : TxBody) (witness : Witness), block.body.txs[i]? = some tx → block.body.witnesses[i]? = some witness →
    ∀ acct, Accounts.load store tx.fromAccount = some acct → acct.pubkey ≠ [] →
      witness.sigAlgo = acct.sigAlgo ∧ resolvePubkey i store tx witness = .ok acct.pubkey ∧
        SigFns.verify acct.sigAlgo acct.pubkey witness.sig tx.signingHash.toList = .ok ()

def InlineAlgosMatch (store : MemState) (block : Block) : Prop :=
  ∀ (i : Nat) (tx : TxBody) (witness : Witness), block.body.txs[i]? = some tx → block.body.witnesses[i]? = some witness →
    ∀ acct bytes, Accounts.load store tx.fromAccount = some acct → acct.pubkey ≠ [] → witness.pubkey = .inline bytes →
      witness.sigAlgo = acct.sigAlgo

theorem accepted_staged (store : MemState) (block : Block) (reward : U128)
    (accepted : (applyBlock store block reward).2.isOk = true) (i : Nat) (tx : TxBody)
    (position : block.body.txs[i]? = some tx) :
    ∃ staged, Staged store block.body.witnesses (tx, i) staged := by
  have outcome := apply_block_outcome store block reward
  generalize applyBlock store block reward = result at outcome accepted
  cases outcome with
  | accepted fees minted staged spent affected paid valid spend effects coinbase =>
      obtain ⟨all, _⟩ := validate_block_ok store block fees staged valid
      have member : (tx, i) ∈ block.body.txs.zipIdx := List.mem_zipIdx_iff_getElem?.mpr position
      obtain ⟨j, bound, atIndex⟩ := List.mem_iff_getElem.mp member
      have paired := all.get bound (all.length_eq ▸ bound)
      rw [List.get_eq_getElem, atIndex] at paired
      exact ⟨_, paired⟩
  | _ => cases accepted

theorem key_bound_step (keys : Set (List U8)) (store : MemState) (block : Block) (reward : U128)
    (collisionFree : Set.InjOn AccountId.fromPubkey keys) (invariant : KeysFrom keys store)
    (brought : inlineKeys block ⊆ keys) (accepted : (applyBlock store block reward).2.isOk = true)
    (sameAlgo : InlineAlgosMatch store block) : KeyBound store block := by
  intro i tx witness position presented acct found committed
  obtain ⟨staged, index, witness', present, _, validated⟩ := accepted_staged store block reward accepted i tx position
  dsimp only at index present validated
  obtain rfl : witness = witness' := Option.some.inj (presented.symm.trans present)
  have loaded : Accounts.loadOrDefault store tx.fromAccount = acct := by
    rw [Accounts.loadOrDefault, found, Option.getD_some]
  have own := invariant tx.fromAccount
  rw [loaded] at own
  obtain ⟨ownKey, ownDerives⟩ := own committed
  have bound : witness.sigAlgo = acct.sigAlgo ∧ staged.pubkeyBytes = acct.pubkey := by
    rcases resolved_key staged.idx store tx witness staged.pubkeyBytes validated.key with
      ⟨shape, derives⟩ | ⟨_, taken, _, checked⟩
    · have inlined := brought ⟨witness, List.mem_of_getElem? presented, shape⟩
      exact ⟨sameAlgo i tx witness position presented acct _ found committed shape,
        collisionFree inlined ownKey (derives.trans ownDerives.symm)⟩
    · rw [loaded] at taken checked
      exact ⟨checked, taken⟩
  obtain ⟨algo, key⟩ := bound
  have resolved := validated.key
  have signed := validated.signed
  rw [index, key] at resolved
  rw [algo, key] at signed
  exact ⟨algo, resolved, signed⟩

-- The keys that a run brings inline. Only on these the derivation of account
-- ids is assumed not to collide.
def runKeys (run : List (Block × U128)) : Set (List U8) := {bytes | ∃ call ∈ run, bytes ∈ inlineKeys call.1}

theorem run_key_bound_iff (run : List (Block × U128)) (collisionFree : Set.InjOn AccountId.fromPubkey (runKeys run))
    (accepted : AllAccepted MemState.new run) :
    Along applyCall (fun state call => KeyBound state call.1) MemState.new run ↔
      Along applyCall (fun state call => InlineAlgosMatch state call.1) MemState.new run := by
  have brought : ∀ call ∈ run, inlineKeys call.1 ⊆ runKeys run := fun call member bytes inlined => ⟨call, member, inlined⟩
  have invariant : Along applyCall (fun state _ => KeysFrom (runKeys run) state) MemState.new run :=
    along_of_invariant applyCall (KeysFrom (runKeys run)) _ MemState.new run (keys_from_new _)
      fun state call member kept => ⟨kept, keys_from_block _ state call.1 call.2 kept (brought call member)⟩
  constructor
  · intro bound
    refine along_mono applyCall _ _ MemState.new run ?_ bound
    intro state call _ keyBound i tx witness position presented acct _ found committed _
    exact (keyBound i tx witness position presented acct found committed).1
  · intro sameAlgo
    refine along_mono applyCall _ _ MemState.new run ?_
      (along_and applyCall _ _ _ _ (along_and applyCall _ _ _ _ invariant accepted) sameAlgo)
    intro state call member ⟨⟨kept, ok⟩, matched⟩
    exact key_bound_step (runKeys run) state call.1 call.2 collisionFree kept (brought call member) ok matched

end

open Sample in
def keyRun (first second : U8) : List (Block × U128) :=
  let key := List.replicate 32 7
  let sender := AccountId.fromPubkey key
  [(block (header 1 (.replicate 32 0) 1000 0) [signedTx 0 (.transfer sender 0) 0 first key (.inline key)], 0),
    (block (header 2 (.replicate 32 0) 2000 0) [signedTx 1 (.transfer sender 0) 0 second key (.inline key)], 0)]

open Sample in
theorem key_run_keys (first second : U8) : Set.InjOn AccountId.fromPubkey (runKeys (keyRun first second)) := by
  have one : ∀ bytes ∈ runKeys (keyRun first second), bytes = List.replicate 32 7 := by
    intro bytes ⟨call, member, witness, present, shape⟩
    simp only [keyRun, List.mem_cons, List.not_mem_nil, or_false] at member
    rcases member with rfl | rfl <;>
      simp only [block, signedTx, List.map_cons, List.map_nil, List.mem_cons, List.not_mem_nil, or_false] at present <;>
      rw [present] at shape <;> exact (PubKeyRef.inline.inj shape).symm
  intro a insideA b insideB _
  rw [one a insideA, one b insideB]

open Sample in
theorem ed25519_run_key_bound :
    Along applyCall (fun state call => KeyBound state call.1) MemState.new (keyRun 3 3) ↔
      Along applyCall (fun state call => InlineAlgosMatch state call.1) MemState.new (keyRun 3 3) :=
  run_key_bound_iff (keyRun 3 3) (key_run_keys 3 3) (by unfold AllAccepted; decide +kernel)

open Sample in
theorem inline_witness_changes_algorithm :
    Set.InjOn AccountId.fromPubkey (runKeys (keyRun 3 2)) ∧ AllAccepted MemState.new (keyRun 3 2) ∧
      ¬ Along applyCall (fun state call => KeyBound state call.1) MemState.new (keyRun 3 2) := by
  refine ⟨key_run_keys 3 2, by unfold AllAccepted; decide +kernel, ?_⟩
  intro ⟨_, bound, _⟩
  have committed : (Accounts.load (runCalls applyCall MemState.new ((keyRun 3 2).take 1))
      (.fromPubkey (List.replicate 32 7))).map (fun acct => (acct.pubkey.isEmpty, acct.sigAlgo)) = some (false, 3) := by
    decide +kernel
  obtain ⟨acct, found, fields⟩ := Option.map_eq_some_iff.mp committed
  obtain ⟨present, algo⟩ := Prod.mk.inj fields
  have same := (bound 0 _ _ rfl rfl acct found (by intro empty; simp [empty] at present)).1
  rw [algo] at same
  exact absurd same (by decide)

end PyGrove.State
