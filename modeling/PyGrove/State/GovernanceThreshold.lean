import Mathlib.Data.List.Duplicate
import PyGrove.Lib.Quorum
import PyGrove.State.Governance

set_option autoImplicit false

namespace PyGrove.State

open Words PyGrove.Core Crypto Quorum

theorem distinct_signers_ok_iff (seen : List (Bytes 32)) (signers : List GovernanceSigner) :
    distinctSigners seen signers = .ok () ↔
      (signers.map GovernanceSigner.signerId).Nodup ∧ ∀ s ∈ signers, s.signerId ∉ seen := by
  induction signers generalizing seen with
  | nil => simp [distinctSigners]
  | cons s tail ih =>
      rw [distinctSigners]
      by_cases duplicate : s.signerId ∈ seen
      · simp [duplicate]
      · rw [if_neg duplicate, ih, List.map_cons, List.nodup_cons]
        constructor
        · rintro ⟨distinct, fresh⟩
          refine ⟨⟨?_, distinct⟩, ?_⟩
          · intro member
            obtain ⟨other, inside, same⟩ := List.mem_map.mp member
            exact fresh other inside (by rw [same]; exact List.mem_cons_self)
          · intro other member
            rcases List.mem_cons.mp member with rfl | inside
            · exact duplicate
            · exact fun old => fresh other inside (List.mem_cons_of_mem _ old)
        · rintro ⟨⟨apart, distinct⟩, fresh⟩
          refine ⟨distinct, fun other inside => ?_⟩
          rw [List.mem_cons, not_or]
          refine ⟨fun same => apart (same ▸ List.mem_map_of_mem inside), fresh other (List.mem_cons_of_mem _ inside)⟩

theorem validate_ok_iff (cfg : GovernanceConfig) :
    cfg.validate = .ok () ↔
      0 < cfg.threshold.toNat ∧ cfg.threshold.toNat ≤ cfg.signers.length ∧
        (cfg.signers.map GovernanceSigner.signerId).Nodup := by
  rw [GovernanceConfig.validate]
  by_cases empty : cfg.signers.isEmpty
  · rw [if_pos empty]
    have none := List.isEmpty_iff.mp empty
    simp only [reduceCtorEq, none, List.length_nil, false_iff, not_and]
    omega
  · rw [if_neg empty]
    by_cases zero : cfg.threshold = 0
    · rw [if_pos zero, zero]
      simp
    · have positive := to_nat_pos cfg.threshold zero
      rw [if_neg zero]
      by_cases more : cfg.threshold.toNat > cfg.signers.length
      · rw [if_pos more]
        simp only [reduceCtorEq, false_iff, not_and]
        omega
      · rw [if_neg more, distinct_signers_ok_iff]
        simp only [positive, Nat.not_lt.mp more, List.not_mem_nil, not_false_eq_true, implies_true, and_true, true_and]

section
variable {α : Type} (idOf : α → Bytes 32) (entries : List α)

theorem find_by_id (id : Bytes 32) (entry : α) (found : entries.find? (fun entry => idOf entry = id) = some entry) :
    entry ∈ entries ∧ idOf entry = id :=
  ⟨List.mem_of_find?_eq_some found, by simpa using List.find?_some found⟩

theorem find_by_own_id (distinct : (entries.map idOf).Nodup) (entry : α) (member : entry ∈ entries) :
    entries.find? (fun other => idOf other = idOf entry) = some entry := by
  cases found : entries.find? (fun other => idOf other = idOf entry) with
  | none => exact absurd (List.find?_eq_none.mp found entry member) (by simp)
  | some other =>
      obtain ⟨inside, same⟩ := find_by_id idOf entries _ other found
      rw [List.inj_on_of_nodup_map distinct inside member same]

end

section
variable [SigFns] (cfg : GovernanceConfig) (msg : Bytes 32)

def entryAccepted (sig : GovernanceSig) : Bool :=
  match cfg.signers.find? (fun s => s.signerId = sig.signerId) with
  | none => false
  | some signer => (SigFns.verify signer.sigAlgo signer.pubkey sig.sig msg.toList).isOk

def countedIds (seen : List (Bytes 32)) : List GovernanceSig → List (Bytes 32)
  | [] => []
  | sig :: tail =>
      if seen.contains sig.signerId then countedIds seen tail
      else if entryAccepted cfg msg sig then sig.signerId :: countedIds (sig.signerId :: seen) tail
      else countedIds (sig.signerId :: seen) tail

theorem counted_ids_cons (seen : List (Bytes 32)) (sig : GovernanceSig) (tail : List GovernanceSig) :
    countedIds cfg msg seen (sig :: tail) =
      if sig.signerId ∈ seen then countedIds cfg msg seen tail
      else if entryAccepted cfg msg sig then sig.signerId :: countedIds cfg msg (sig.signerId :: seen) tail
      else countedIds cfg msg (sig.signerId :: seen) tail := by
  rw [countedIds]
  simp only [List.contains_iff_mem]

theorem count_signatures_cons_fresh (seen : List (Bytes 32)) (verified : U32) (sig : GovernanceSig) (tail : List GovernanceSig)
    (fresh : sig.signerId ∉ seen) :
    countSignatures cfg msg seen verified (sig :: tail) =
      if entryAccepted cfg msg sig then
        if cfg.threshold ≤ verified + 1 then .ok ()
        else countSignatures cfg msg (sig.signerId :: seen) (verified + 1) tail
      else countSignatures cfg msg (sig.signerId :: seen) verified tail := by
  rw [countSignatures, if_neg fresh]
  cases found : cfg.signers.find? (fun s => s.signerId = sig.signerId) with
  | none =>
      have unknown : ¬ entryAccepted cfg msg sig := by simp [entryAccepted, found]
      rw [if_neg unknown]
  | some signer =>
      dsimp only
      cases checked : SigFns.verify signer.sigAlgo signer.pubkey sig.sig msg.toList with
      | error e =>
          have bad : ¬ entryAccepted cfg msg sig := by simp [entryAccepted, found, checked, Except.isOk, Except.toBool]
          rw [if_neg bad]
      | ok _ =>
          have good : entryAccepted cfg msg sig := by simp [entryAccepted, found, checked, Except.isOk, Except.toBool]
          rw [if_pos good]

-- The loop stops as soon as the threshold is reached, and with less than the
-- threshold counted the counter has room for one more.
theorem count_signatures_ok_iff (seen : List (Bytes 32)) (verified : U32) (sigs : List GovernanceSig)
    (below : verified.toNat < cfg.threshold.toNat) :
    countSignatures cfg msg seen verified sigs = .ok () ↔
      cfg.threshold.toNat ≤ verified.toNat + (countedIds cfg msg seen sigs).length := by
  induction sigs generalizing seen verified with
  | nil =>
      rw [countSignatures, countedIds, List.length_nil, Nat.add_zero]
      simp only [reduceCtorEq, false_iff]
      omega
  | cons sig tail ih =>
      by_cases fresh : sig.signerId ∈ seen
      · rw [countSignatures, if_pos fresh, counted_ids_cons, if_pos fresh]
        exact ih seen verified below
      · have bound := cfg.threshold.isLt
        have next := to_nat_succ verified (by omega)
        rw [count_signatures_cons_fresh cfg msg seen verified sig tail fresh, counted_ids_cons, if_neg fresh]
        by_cases accepted : entryAccepted cfg msg sig
        · rw [if_pos accepted, if_pos accepted, List.length_cons]
          by_cases reached : cfg.threshold ≤ verified + 1
          · have enough := BitVec.le_def.mp reached
            rw [if_pos reached]
            simp only [true_iff]
            omega
          · have short := BitVec.lt_def.mp (BitVec.not_le.mp reached)
            rw [if_neg reached, ih _ _ short, next]
            omega
        · rw [if_neg accepted, if_neg accepted]
          exact ih _ verified below

theorem mem_counted_ids (seen : List (Bytes 32)) (sigs : List GovernanceSig) (id : Bytes 32) :
    id ∈ countedIds cfg msg seen sigs ↔
      id ∉ seen ∧ ∃ sig, sigs.find? (fun sig => sig.signerId = id) = some sig ∧ entryAccepted cfg msg sig := by
  induction sigs generalizing seen with
  | nil => simp [countedIds]
  | cons sig tail ih =>
      rw [counted_ids_cons]
      by_cases own : sig.signerId = id
      · rw [List.find?_cons_of_pos (by simpa using own)]
        by_cases fresh : sig.signerId ∈ seen
        · rw [if_pos fresh, ih]
          simp [← own, fresh]
        · rw [if_neg fresh]
          by_cases accepted : entryAccepted cfg msg sig
          · simp [accepted, ← own, fresh]
          · rw [if_neg accepted, ih]
            simp [← own, accepted]
      · rw [List.find?_cons_of_neg (by simpa using own)]
        by_cases fresh : sig.signerId ∈ seen
        · rw [if_pos fresh, ih]
        · rw [if_neg fresh]
          by_cases accepted : entryAccepted cfg msg sig
          · rw [if_pos accepted, List.mem_cons, ih]
            simp [Ne.symm own]
          · rw [if_neg accepted, ih]
            simp [Ne.symm own]

theorem counted_ids_nodup (seen : List (Bytes 32)) (sigs : List GovernanceSig) : (countedIds cfg msg seen sigs).Nodup := by
  induction sigs generalizing seen with
  | nil => exact List.nodup_nil
  | cons sig tail ih =>
      rw [counted_ids_cons]
      by_cases fresh : sig.signerId ∈ seen
      · rw [if_pos fresh]
        exact ih seen
      · rw [if_neg fresh]
        by_cases accepted : entryAccepted cfg msg sig
        · rw [if_pos accepted, List.nodup_cons]
          refine ⟨fun member => ?_, ih _⟩
          exact ((mem_counted_ids cfg msg _ tail _).mp member).1 List.mem_cons_self
        · rw [if_neg accepted]
          exact ih _

def AcceptedFor (sig : GovernanceSig) (id : Bytes 32) : Prop :=
  sig.signerId = id ∧
    ∃ signer ∈ cfg.signers, signer.signerId = id ∧ SigFns.verify signer.sigAlgo signer.pubkey sig.sig msg.toList = .ok ()

def Signed (proof : GovernanceProof) (id : Bytes 32) : Prop := ∃ sig ∈ proof.signatures, AcceptedFor cfg msg sig id

def SignedFirst (proof : GovernanceProof) (id : Bytes 32) : Prop :=
  ∃ sig, proof.signatures.find? (fun sig => sig.signerId = id) = some sig ∧ AcceptedFor cfg msg sig id

theorem entry_accepted_iff (distinct : (cfg.signers.map GovernanceSigner.signerId).Nodup) (sig : GovernanceSig) :
    entryAccepted cfg msg sig ↔ AcceptedFor cfg msg sig sig.signerId := by
  constructor
  · intro accepted
    cases found : cfg.signers.find? (fun s => s.signerId = sig.signerId) with
    | none => simp [entryAccepted, found] at accepted
    | some signer =>
        obtain ⟨member, same⟩ := find_by_id GovernanceSigner.signerId cfg.signers _ signer found
        refine ⟨rfl, signer, member, same, ?_⟩
        rw [entryAccepted, found] at accepted
        dsimp only at accepted
        cases checked : SigFns.verify signer.sigAlgo signer.pubkey sig.sig msg.toList with
        | error e =>
            rw [checked] at accepted
            cases accepted
        | ok _ => rfl
  · rintro ⟨_, signer, member, same, checked⟩
    have found := find_by_own_id GovernanceSigner.signerId cfg.signers distinct signer member
    rw [same] at found
    rw [entryAccepted, found]
    dsimp only
    rw [checked]
    rfl

theorem governance_verified_iff (proof : GovernanceProof) (valid : cfg.validate = .ok ()) :
    verifyGovernanceProof cfg proof msg = .ok () ↔
      cfg.threshold.toNat ≤ proof.signatures.length % 2 ^ 32 ∧ AtLeast cfg.threshold.toNat (SignedFirst cfg msg proof) := by
  obtain ⟨positive, _, distinct⟩ := (validate_ok_iff cfg).mp valid
  have counted : cfg.threshold.toNat ≤ (countedIds cfg msg [] proof.signatures).length ↔
      AtLeast cfg.threshold.toNat (SignedFirst cfg msg proof) := by
    rw [← at_least_mem_iff _ _ (counted_ids_nodup cfg msg [] proof.signatures)]
    refine at_least_congr _ _ _ fun id => ?_
    rw [mem_counted_ids]
    simp only [List.not_mem_nil, not_false_eq_true, true_and, entry_accepted_iff cfg msg distinct, SignedFirst]
    refine exists_congr fun sig => and_congr_right fun found => ?_
    rw [(find_by_id GovernanceSig.signerId proof.signatures id sig found).2]
  have short : BitVec.ofNat 32 proof.signatures.length < cfg.threshold ↔
      proof.signatures.length % 2 ^ 32 < cfg.threshold.toNat := by
    rw [BitVec.lt_def, BitVec.toNat_ofNat]
  rw [verifyGovernanceProof, ← counted]
  by_cases few : BitVec.ofNat 32 proof.signatures.length < cfg.threshold
  · have less := short.mp few
    rw [if_pos few]
    simp only [reduceCtorEq, false_iff, not_and]
    omega
  · have enough := fun less => few (short.mpr less)
    rw [if_neg few, count_signatures_ok_iff cfg msg [] 0 proof.signatures positive, show (0 : U32).toNat = 0 from rfl, Nat.zero_add]
    simp only [Nat.not_lt.mp enough, true_and]

def Junk (sig : GovernanceSig) : Prop := ¬ AcceptedFor cfg msg sig sig.signerId

def SignedThroughout (proof : GovernanceProof) (id : Bytes 32) : Prop :=
  (∃ sig ∈ proof.signatures, sig.signerId = id) ∧ ∀ sig ∈ proof.signatures, sig.signerId = id → AcceptedFor cfg msg sig id

structure OrderFree (proof : GovernanceProof) : Prop where
  counted : verifyGovernanceProof cfg proof msg = .ok () ↔ AtLeast cfg.threshold.toNat (Signed cfg msg proof)
  reordered : ∀ other : GovernanceProof, other.signatures.Perm proof.signatures →
    (verifyGovernanceProof cfg other msg = .ok () ↔ verifyGovernanceProof cfg proof msg = .ok ())

structure ThresholdExact (proof : GovernanceProof) : Prop extends OrderFree cfg msg proof where
  padded : ∀ (other : GovernanceProof) (junk : List GovernanceSig), (∀ sig ∈ junk, Junk cfg msg sig) →
    proof.signatures.Sublist other.signatures → other.signatures.Perm (junk ++ proof.signatures) →
    verifyGovernanceProof cfg proof msg = .ok () → verifyGovernanceProof cfg other msg = .ok ()

theorem first_signed (proof : GovernanceProof) (id : Bytes 32) (first : SignedFirst cfg msg proof id) :
    Signed cfg msg proof id := by
  obtain ⟨sig, found, accepted⟩ := first
  exact ⟨sig, List.mem_of_find?_eq_some found, accepted⟩

theorem throughout_first (proof : GovernanceProof) (id : Bytes 32) (throughout : SignedThroughout cfg msg proof id) :
    SignedFirst cfg msg proof id := by
  obtain ⟨⟨sig, member, own⟩, all⟩ := throughout
  cases found : proof.signatures.find? (fun sig => sig.signerId = id) with
  | none => exact absurd own (by simpa using List.find?_eq_none.mp found sig member)
  | some first =>
      obtain ⟨inside, same⟩ := find_by_id GovernanceSig.signerId proof.signatures id first found
      exact ⟨first, found, all first inside same⟩

theorem signed_perm (proof other : GovernanceProof) (perm : other.signatures.Perm proof.signatures) (id : Bytes 32) :
    Signed cfg msg other id ↔ Signed cfg msg proof id := by
  simp only [Signed, perm.mem_iff]

theorem throughout_perm (proof other : GovernanceProof) (perm : other.signatures.Perm proof.signatures) (id : Bytes 32) :
    SignedThroughout cfg msg other id ↔ SignedThroughout cfg msg proof id := by
  simp only [SignedThroughout, perm.mem_iff]

theorem unsigned_rejected (proof : GovernanceProof) (valid : cfg.validate = .ok ())
    (few : ¬ AtLeast cfg.threshold.toNat (Signed cfg msg proof)) : verifyGovernanceProof cfg proof msg ≠ .ok () := by
  intro verified
  have enough := ((governance_verified_iff cfg msg proof valid).mp verified).2
  exact few (at_least_mono _ _ _ (first_signed cfg msg proof) enough)

theorem throughout_verified (proof : GovernanceProof) (valid : cfg.validate = .ok ())
    (long : cfg.threshold.toNat ≤ proof.signatures.length % 2 ^ 32)
    (enough : AtLeast cfg.threshold.toNat (SignedThroughout cfg msg proof)) : verifyGovernanceProof cfg proof msg = .ok () :=
  (governance_verified_iff cfg msg proof valid).mpr ⟨long, at_least_mono _ _ _ (throughout_first cfg msg proof) enough⟩

theorem junk_first_throughout (proof other : GovernanceProof) (front back : List GovernanceSig)
    (order : other.signatures = front ++ back) (perm : other.signatures.Perm proof.signatures)
    (junk : ∀ sig, sig ∈ front ↔ sig ∈ proof.signatures ∧ Junk cfg msg sig) (id : Bytes 32)
    (first : SignedFirst cfg msg other id) : SignedThroughout cfg msg proof id := by
  obtain ⟨sig, found, accepted⟩ := first
  obtain ⟨member, own⟩ := find_by_id GovernanceSig.signerId other.signatures id sig found
  refine ⟨⟨sig, perm.mem_iff.mp member, own⟩, fun entry inside same => ?_⟩
  by_contra bad
  have fronted : entry ∈ front := (junk entry).mpr ⟨inside, by rwa [Junk, same]⟩
  rw [order, List.find?_append] at found
  cases early : front.find? (fun sig => sig.signerId = id) with
  | none => exact absurd same (by simpa using List.find?_eq_none.mp early entry fronted)
  | some ahead =>
      obtain ⟨aheadMember, aheadId⟩ := find_by_id GovernanceSig.signerId front id ahead early
      rw [early, Option.some_or] at found
      cases found
      exact ((junk sig).mp aheadMember).2 (aheadId ▸ accepted)

theorem order_free_iff (proof : GovernanceProof) (valid : cfg.validate = .ok ()) :
    OrderFree cfg msg proof ↔
      ¬ AtLeast cfg.threshold.toNat (Signed cfg msg proof) ∨
        (cfg.threshold.toNat ≤ proof.signatures.length % 2 ^ 32 ∧
          AtLeast cfg.threshold.toNat (SignedThroughout cfg msg proof)) := by
  classical
  constructor
  · intro free
    by_cases signed : AtLeast cfg.threshold.toNat (Signed cfg msg proof)
    · right
      let front := proof.signatures.filter fun sig => Junk cfg msg sig
      let back := proof.signatures.filter fun sig => !decide (Junk cfg msg sig)
      have perm : (front ++ back).Perm proof.signatures := List.filter_append_perm ..
      have verified := (free.reordered ⟨front ++ back⟩ perm).mpr (free.counted.mpr signed)
      obtain ⟨long, enough⟩ := (governance_verified_iff cfg msg _ valid).mp verified
      dsimp only at long
      rw [perm.length_eq] at long
      refine ⟨long, at_least_mono _ _ _ (junk_first_throughout cfg msg proof ⟨front ++ back⟩ front back rfl perm ?_) enough⟩
      intro sig
      rw [List.mem_filter, decide_eq_true_iff]
    · exact .inl signed
  · rintro (few | ⟨long, enough⟩)
    · have rejected := unsigned_rejected cfg msg proof valid few
      refine ⟨iff_of_false rejected few, fun other perm => iff_of_false ?_ rejected⟩
      apply unsigned_rejected cfg msg other valid
      rwa [at_least_congr _ _ _ (signed_perm cfg msg proof other perm)]
    · have verified := throughout_verified cfg msg proof valid long enough
      refine ⟨iff_of_true verified ?_, fun other perm => iff_of_true ?_ verified⟩
      · exact at_least_mono _ _ _ (fun id all => first_signed cfg msg proof id (throughout_first cfg msg proof id all)) enough
      · apply throughout_verified cfg msg other valid
        · rwa [perm.length_eq]
        · rwa [at_least_congr _ _ _ (throughout_perm cfg msg proof other perm)]

theorem padded_rejected (proof : GovernanceProof) (valid : cfg.validate = .ok ()) (sig : GovernanceSig) :
    ∃ count, verifyGovernanceProof cfg ⟨List.replicate count sig ++ proof.signatures⟩ msg ≠ .ok () := by
  have positive := ((validate_ok_iff cfg).mp valid).1
  refine ⟨2 ^ 32 - proof.signatures.length % 2 ^ 32, fun verified => ?_⟩
  have long := ((governance_verified_iff cfg msg _ valid).mp verified).1
  rw [List.length_append, List.length_replicate] at long
  omega

theorem exact_threshold_iff (proof : GovernanceProof) (valid : cfg.validate = .ok ()) :
    (ThresholdExact cfg msg proof ↔
      ¬ AtLeast cfg.threshold.toNat (Signed cfg msg proof) ∨
        ((∀ sig, ¬ Junk cfg msg sig) ∧ cfg.threshold.toNat ≤ proof.signatures.length % 2 ^ 32)) ∧
    (OrderFree cfg msg proof ↔
      ¬ AtLeast cfg.threshold.toNat (Signed cfg msg proof) ∨
        (cfg.threshold.toNat ≤ proof.signatures.length % 2 ^ 32 ∧
          AtLeast cfg.threshold.toNat (SignedThroughout cfg msg proof))) := by
  have ordered := order_free_iff cfg msg proof valid
  refine ⟨?_, ordered⟩
  by_cases signed : AtLeast cfg.threshold.toNat (Signed cfg msg proof)
  · constructor
    · intro whole
      have verified := whole.counted.mpr signed
      refine .inr ⟨fun sig junk => ?_, ((governance_verified_iff cfg msg proof valid).mp verified).1⟩
      obtain ⟨count, rejected⟩ := padded_rejected cfg msg proof valid sig
      refine rejected (whole.padded _ (List.replicate count sig) ?_ (List.sublist_append_right ..) (.refl _) verified)
      intro entry member
      rw [List.eq_of_mem_replicate member]
      exact junk
    · intro safe
      obtain ⟨none, long⟩ := safe.resolve_left (not_not.mpr signed)
      have throughout : AtLeast cfg.threshold.toNat (SignedThroughout cfg msg proof) := by
        refine at_least_mono _ _ _ ?_ signed
        rintro id ⟨sig, member, accepted⟩
        exact ⟨⟨sig, member, accepted.1⟩, fun entry _ same => same ▸ not_not.mp (none entry)⟩
      have free := ordered.mpr (.inr ⟨long, throughout⟩)
      refine ⟨free, fun other junk allJunk _ perm verified => ?_⟩
      cases junk with
      | nil => exact (free.reordered other perm).mpr verified
      | cons sig tail => exact absurd (allJunk sig List.mem_cons_self) (none sig)
  · have rejected := unsigned_rejected cfg msg proof valid signed
    exact iff_of_true ⟨ordered.mpr (.inl signed), fun _ _ _ _ _ verified => absurd verified rejected⟩ (.inl signed)

end

@[reducible] def ownKeyOnly : SigFns where
  fips := false
  verify := fun algo pubkey sig _ => if sig = algo :: pubkey then .ok () else .error .badSignature

def ownSignature (signer : GovernanceSigner) : GovernanceSig := ⟨signer.signerId, signer.sigAlgo :: signer.pubkey⟩

def soleSigner : GovernanceSigner := ⟨List.Vector.replicate 32 1, 3, [7]⟩

def soleCommittee : GovernanceConfig := ⟨0, 1, [soleSigner]⟩

def junkEntry : GovernanceSig := ⟨List.Vector.replicate 32 1, []⟩

theorem early_junk_rejects :
    soleCommittee.validate = .ok () ∧
      AtLeast soleCommittee.threshold.toNat
        (@Signed ownKeyOnly soleCommittee (List.Vector.replicate 32 0) ⟨[junkEntry, ownSignature soleSigner]⟩) ∧
      @verifyGovernanceProof ownKeyOnly soleCommittee ⟨[junkEntry, ownSignature soleSigner]⟩ (List.Vector.replicate 32 0) =
        .error (.belowThreshold 0 1) ∧
      @verifyGovernanceProof ownKeyOnly soleCommittee ⟨[ownSignature soleSigner, junkEntry]⟩ (List.Vector.replicate 32 0) =
        .ok () := by
  refine ⟨rfl, ?_, rfl, rfl⟩
  refine ⟨[soleSigner.signerId], List.nodup_singleton _, Nat.le_refl _, fun id member => ?_⟩
  rw [List.mem_singleton.mp member]
  exact ⟨ownSignature soleSigner, by simp, rfl, soleSigner, List.mem_singleton.mpr rfl, rfl, if_pos rfl⟩

theorem sole_signature_exact :
    let proof : GovernanceProof := ⟨[ownSignature soleSigner]⟩
    let msg : Bytes 32 := List.Vector.replicate 32 0
    (@ThresholdExact ownKeyOnly soleCommittee msg proof ↔
      ¬ AtLeast soleCommittee.threshold.toNat (@Signed ownKeyOnly soleCommittee msg proof) ∨
        ((∀ sig, ¬ @Junk ownKeyOnly soleCommittee msg sig) ∧
          soleCommittee.threshold.toNat ≤ proof.signatures.length % 2 ^ 32)) ∧
    (@OrderFree ownKeyOnly soleCommittee msg proof ↔
      ¬ AtLeast soleCommittee.threshold.toNat (@Signed ownKeyOnly soleCommittee msg proof) ∨
        (soleCommittee.threshold.toNat ≤ proof.signatures.length % 2 ^ 32 ∧
          AtLeast soleCommittee.threshold.toNat (@SignedThroughout ownKeyOnly soleCommittee msg proof))) :=
  @exact_threshold_iff ownKeyOnly soleCommittee (List.Vector.replicate 32 0) ⟨[ownSignature soleSigner]⟩ rfl

section
variable (cfg : GovernanceConfig)

def GovernanceSigner.key (signer : GovernanceSigner) : U8 × List U8 := (signer.sigAlgo, signer.pubkey)

def KeySigned [SigFns] (msg : Bytes 32) (proof : GovernanceProof) (key : U8 × List U8) : Prop :=
  key ∈ cfg.signers.map GovernanceSigner.key ∧
    ∃ sig ∈ proof.signatures, SigFns.verify key.1 key.2 sig.sig msg.toList = .ok ()

theorem keys_of_ids [SigFns] (msg : Bytes 32) (proof : GovernanceProof) (apart : (cfg.signers.map GovernanceSigner.key).Nodup)
    (ids : List (Bytes 32)) (distinct : ids.Nodup) (signed : ∀ id ∈ ids, SignedFirst cfg msg proof id) :
    ∃ keys : List (U8 × List U8), keys.Nodup ∧ keys.length = ids.length ∧ (∀ key ∈ keys, KeySigned cfg msg proof key) ∧
      ∀ key ∈ keys, ∃ signer ∈ cfg.signers, signer.key = key ∧ signer.signerId ∈ ids := by
  induction ids with
  | nil => exact ⟨[], List.nodup_nil, rfl, by simp, by simp⟩
  | cons id tail ih =>
      obtain ⟨fresh, rest⟩ := List.nodup_cons.mp distinct
      obtain ⟨keys, keysDistinct, size, all, owners⟩ := ih rest fun other member => signed other (List.mem_cons_of_mem _ member)
      obtain ⟨sig, found, _, signer, member, own, accepted⟩ := signed id List.mem_cons_self
      refine ⟨signer.key :: keys, List.nodup_cons.mpr ⟨?_, keysDistinct⟩, by rw [List.length_cons, List.length_cons, size], ?_, ?_⟩
      · intro repeated
        obtain ⟨other, inside, same, earlier⟩ := owners signer.key repeated
        rw [List.inj_on_of_nodup_map apart inside member same, own] at earlier
        exact fresh earlier
      · intro key inside
        rcases List.mem_cons.mp inside with rfl | old
        · exact ⟨List.mem_map_of_mem member, sig, List.mem_of_find?_eq_some found, accepted⟩
        · exact all key old
      · intro key inside
        rcases List.mem_cons.mp inside with rfl | old
        · exact ⟨signer, member, rfl, own ▸ List.mem_cons_self⟩
        · obtain ⟨other, otherInside, same, earlier⟩ := owners key old
          exact ⟨other, otherInside, same, List.mem_cons_of_mem _ earlier⟩

theorem distinct_keys_verified [SigFns] (msg : Bytes 32) (proof : GovernanceProof) (valid : cfg.validate = .ok ())
    (apart : cfg.threshold = 1 ∨ (cfg.signers.map GovernanceSigner.key).Nodup)
    (verified : verifyGovernanceProof cfg proof msg = .ok ()) : AtLeast cfg.threshold.toNat (KeySigned cfg msg proof) := by
  obtain ⟨_, ids, distinct, size, signed⟩ := (governance_verified_iff cfg msg proof valid).mp verified
  rcases apart with one | apart
  · rw [one] at size ⊢
    cases ids with
    | nil => exact absurd size (by decide)
    | cons id tail =>
        obtain ⟨sig, found, _, signer, member, _, accepted⟩ := signed id List.mem_cons_self
        refine ⟨[signer.key], List.nodup_singleton _, Nat.le_refl _, fun key inside => ?_⟩
        rw [List.mem_singleton.mp inside]
        exact ⟨List.mem_map_of_mem member, sig, List.mem_of_find?_eq_some found, accepted⟩
  · obtain ⟨keys, keysDistinct, length, all, _⟩ := keys_of_ids cfg msg proof apart ids distinct signed
    exact ⟨keys, keysDistinct, by rw [length]; exact size, all⟩

theorem own_signatures_verified (msg : Bytes 32) (members : List GovernanceSigner) (valid : cfg.validate = .ok ())
    (inside : ∀ signer ∈ members, signer ∈ cfg.signers) (distinct : (members.map GovernanceSigner.signerId).Nodup)
    (size : members.length = cfg.threshold.toNat) :
    @verifyGovernanceProof ownKeyOnly cfg ⟨members.map ownSignature⟩ msg = .ok () := by
  have bound := cfg.threshold.isLt
  refine (@governance_verified_iff ownKeyOnly cfg msg ⟨members.map ownSignature⟩ valid).mpr ⟨?_, ?_⟩
  · rw [List.length_map, size, Nat.mod_eq_of_lt bound]
  · refine ⟨members.map GovernanceSigner.signerId, distinct, by rw [List.length_map, size], fun id member => ?_⟩
    obtain ⟨signer, listed, rfl⟩ := List.mem_map.mp member
    have ids : (members.map ownSignature).map GovernanceSig.signerId = members.map GovernanceSigner.signerId := by
      rw [List.map_map]
      rfl
    have found := find_by_own_id GovernanceSig.signerId (members.map ownSignature) (by rw [ids]; exact distinct)
      (ownSignature signer) (List.mem_map_of_mem listed)
    exact ⟨ownSignature signer, found, rfl, signer, inside signer listed, rfl, if_pos rfl⟩

theorem own_key_signed (msg : Bytes 32) (members : List GovernanceSigner) (key : U8 × List U8)
    (signed : @KeySigned cfg ownKeyOnly msg ⟨members.map ownSignature⟩ key) : key ∈ members.map GovernanceSigner.key := by
  obtain ⟨_, sig, member, accepted⟩ := signed
  obtain ⟨signer, listed, rfl⟩ := List.mem_map.mp member
  have same : signer.sigAlgo :: signer.pubkey = key.1 :: key.2 := by
    by_contra other
    have rejected : @SigFns.verify ownKeyOnly key.1 key.2 (signer.sigAlgo :: signer.pubkey) msg.toList =
        .error .badSignature := if_neg other
    rw [ownSignature, rejected] at accepted
    cases accepted
  obtain ⟨algo, pubkey⟩ := List.cons.inj same
  exact List.mem_map.mpr ⟨signer, listed, Prod.ext algo pubkey⟩

theorem shared_key_members (valid : cfg.validate = .ok ()) (several : 1 < cfg.threshold.toNat)
    (repeated : ¬ (cfg.signers.map GovernanceSigner.key).Nodup) :
    ∃ (a b : GovernanceSigner) (others : List GovernanceSigner), a.key = b.key ∧
      ((a :: b :: others).map GovernanceSigner.signerId).Nodup ∧ (∀ signer ∈ a :: b :: others, signer ∈ cfg.signers) ∧
      (a :: b :: others).length = cfg.threshold.toNat := by
  obtain ⟨_, enough, distinct⟩ := (validate_ok_iff cfg).mp valid
  obtain ⟨key, duplicate⟩ := List.exists_duplicate_iff_not_nodup.mpr repeated
  obtain ⟨pair, sublist, shown⟩ := List.sublist_map_iff.mp (List.duplicate_iff_sublist.mp duplicate)
  obtain ⟨a, tail, rfl, rfl, second⟩ := List.map_eq_cons_iff.mp shown.symm
  obtain ⟨b, last, rfl, same, none⟩ := List.map_eq_cons_iff.mp second
  obtain rfl := List.map_eq_nil_iff.mp none
  obtain ⟨rest, perm⟩ := sublist.exists_perm_append
  have ids := (perm.map GovernanceSigner.signerId).nodup_iff.mp distinct
  have length := perm.length_eq
  rw [List.length_append, List.length_cons, List.length_cons, List.length_nil] at length
  have shorter : (a :: b :: rest.take (cfg.threshold.toNat - 2)).Sublist ([a, b] ++ rest) :=
    ((List.take_sublist _ rest).cons_cons b).cons_cons a
  refine ⟨a, b, rest.take (cfg.threshold.toNat - 2), same.symm, ids.sublist (shorter.map _), ?_, ?_⟩
  · exact fun signer member => perm.mem_iff.mpr (shorter.mem member)
  · rw [List.length_cons, List.length_cons, List.length_take]
    omega

theorem distinct_keys_iff (valid : cfg.validate = .ok ()) :
    (∀ [SigFns] (proof : GovernanceProof) (msg : Bytes 32), verifyGovernanceProof cfg proof msg = .ok () →
        AtLeast cfg.threshold.toNat (KeySigned cfg msg proof)) ↔
      cfg.threshold = 1 ∨ (cfg.signers.map GovernanceSigner.key).Nodup := by
  constructor
  · intro backed
    by_contra neither
    obtain ⟨many, repeated⟩ := not_or.mp neither
    have positive := ((validate_ok_iff cfg).mp valid).1
    have several : 1 < cfg.threshold.toNat := by
      have apart : cfg.threshold.toNat ≠ 1 := fun one => many (BitVec.eq_of_toNat_eq one)
      omega
    obtain ⟨a, b, others, same, distinct, inside, size⟩ := shared_key_members cfg valid several repeated
    have msg : Bytes 32 := List.Vector.replicate 32 0
    have verified := own_signatures_verified cfg msg (a :: b :: others) valid inside distinct size
    have few := at_least_le _ _ ((b :: others).map GovernanceSigner.key) (fun key signed => ?_)
      (@backed ownKeyOnly ⟨(a :: b :: others).map ownSignature⟩ msg verified)
    · rw [List.length_map] at few
      rw [List.length_cons] at size
      omega
    · have member := own_key_signed cfg msg (a :: b :: others) key signed
      rw [List.map_cons, same, List.mem_cons] at member
      rcases member with rfl | inside
      · exact List.mem_cons_self
      · exact inside
  · intro apart _ proof msg verified
    exact distinct_keys_verified cfg msg proof valid apart verified

end

def aliasedCommittee : GovernanceConfig := ⟨0, 2, [soleSigner, { soleSigner with signerId := List.Vector.replicate 32 2 }]⟩

theorem one_key_meets_two :
    aliasedCommittee.validate = .ok () ∧
      @verifyGovernanceProof ownKeyOnly aliasedCommittee ⟨aliasedCommittee.signers.map ownSignature⟩
        (List.Vector.replicate 32 0) = .ok () ∧
      ¬ AtLeast aliasedCommittee.threshold.toNat
        (@KeySigned aliasedCommittee ownKeyOnly (List.Vector.replicate 32 0) ⟨aliasedCommittee.signers.map ownSignature⟩) := by
  refine ⟨by decide, by decide, fun enough => ?_⟩
  have few := at_least_le _ _ [soleSigner.key] (fun key signed => ?_) enough
  · exact absurd few (by decide)
  · obtain ⟨signer, member, rfl⟩ := List.mem_map.mp signed.1
    simp only [aliasedCommittee, List.mem_cons, List.not_mem_nil, or_false] at member
    rcases member with rfl | rfl
    · exact List.mem_singleton.mpr rfl
    · exact List.mem_singleton.mpr rfl

def twoKeyCommittee : GovernanceConfig := ⟨0, 2, [soleSigner, ⟨List.Vector.replicate 32 2, 3, [8]⟩]⟩

theorem two_key_committee_backed :
    (∀ [SigFns] (proof : GovernanceProof) (msg : Bytes 32), verifyGovernanceProof twoKeyCommittee proof msg = .ok () →
        AtLeast twoKeyCommittee.threshold.toNat (KeySigned twoKeyCommittee msg proof)) ↔
      twoKeyCommittee.threshold = 1 ∨ (twoKeyCommittee.signers.map GovernanceSigner.key).Nodup :=
  distinct_keys_iff twoKeyCommittee (by decide)

end PyGrove.State
