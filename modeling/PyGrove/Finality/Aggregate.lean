import Mathlib.Data.List.Perm.Subperm
import PyGrove.State.Cbor

set_option autoImplicit false

namespace PyGrove.Finality

open Words PyGrove.Core Crypto

structure ValidatorPubkey where
  validatorId : Bytes 32
  sigAlgo : U8
  pubkey : List U8
deriving DecidableEq

structure Committee where
  epoch : U64
  members : List ValidatorPubkey
  epochBlocks : U64
  quorum : U32
deriving DecidableEq

structure AggregatedFinalizationCert where
  committeeEpoch : U64
  round : U64
  blockHeight : U64
  blockHash : Bytes 32
  signerBitmap : List U8
  aggSigAlgo : U8
  aggSig : List U8
deriving DecidableEq

inductive FinalityError where
  | badSignature (validator : Bytes 32)
  | wrongRound (validator : Bytes 32) (expected got : U64)
  | wrongBlockHash (validator : Bytes 32)
  | duplicateVote (validator : Bytes 32)
  | notInCommittee (validator : Bytes 32)
  | belowQuorum (got need : U32)
  | epochMismatch (cert committee : U64)
  | algoMismatch (algo : U8)
deriving DecidableEq

class BlsFns where
  aggregatePubkeys : List (List U8) → Except CryptoError (List U8)
  verifyAggregated : List U8 → List U8 → List U8 → Except CryptoError Unit

namespace AggregatedFinalizationCert

-- The u32 sum wraps, as it does in a release build.
def signerCount (cert : AggregatedFinalizationCert) : U32 :=
  cert.signerBitmap.foldl (fun count byte => count + byte.cpop.setWidth 32) 0

def isSigner (cert : AggregatedFinalizationCert) (index : Nat) : Bool :=
  match cert.signerBitmap[index / 8]? with
  | some byte => (byte >>> (index % 8)) &&& 1 == 1
  | none => false

def signingPayload [HashFns] (cert : AggregatedFinalizationCert) : Bytes 32 :=
  HashFns.blake3 (ascii "PGfinalagg\x00" ++ leBytes 8 cert.committeeEpoch.toNat ++ leBytes 8 cert.round.toNat ++
    leBytes 8 cert.blockHeight.toNat ++ cert.blockHash.toList)

end AggregatedFinalizationCert

def collectSigners (cert : AggregatedFinalizationCert) :
    List (ValidatorPubkey × Nat) → Except FinalityError (List (List U8))
  | [] => .ok []
  | (member, i) :: tail =>
      if !cert.isSigner i then collectSigners cert tail
      else if member.sigAlgo ≠ 5 then .error (.algoMismatch member.sigAlgo)
      else
        match collectSigners cert tail with
        | .error e => .error e
        | .ok rest => .ok (member.pubkey :: rest)

def verifyAggregatedCert [HashFns] [BlsFns] (committee : Committee) (cert : AggregatedFinalizationCert) :
    Except FinalityError Unit :=
  if cert.committeeEpoch ≠ committee.epoch then .error (.epochMismatch cert.committeeEpoch committee.epoch)
  else if cert.signerCount < committee.quorum then .error (.belowQuorum cert.signerCount committee.quorum)
  else if cert.aggSigAlgo ≠ 5 then .error (.algoMismatch cert.aggSigAlgo)
  else
    match collectSigners cert committee.members.zipIdx with
    | .error e => .error e
    | .ok signerPks =>
        if signerPks.isEmpty then .error (.belowQuorum 0 committee.quorum)
        else
          match BlsFns.aggregatePubkeys signerPks with
          | .error _ => .error (.badSignature (.replicate 32 0))
          | .ok aggPk =>
              match BlsFns.verifyAggregated aggPk cert.aggSig cert.signingPayload.toList with
              | .error _ => .error (.badSignature (.replicate 32 0))
              | .ok () => .ok ()

def signerSlots (committee : Committee) (cert : AggregatedFinalizationCert) : List (ValidatorPubkey × Nat) :=
  committee.members.zipIdx.filter fun item => cert.isSigner item.2

theorem collect_signers_ok (cert : AggregatedFinalizationCert) (items : List (ValidatorPubkey × Nat))
    (signerPks : List (List U8)) :
    collectSigners cert items = .ok signerPks ↔
      (∀ item ∈ items.filter (fun item => cert.isSigner item.2), item.1.sigAlgo = 5) ∧
        signerPks = (items.filter (fun item => cert.isSigner item.2)).map (fun item => item.1.pubkey) := by
  induction items generalizing signerPks with
  | nil => simp [collectSigners, eq_comm]
  | cons item tail ih =>
      obtain ⟨member, i⟩ := item
      rw [collectSigners]
      by_cases signed : cert.isSigner i
      · rw [if_neg (by simp [signed]), List.filter_cons_of_pos (by exact signed)]
        by_cases algo : member.sigAlgo = 5
        · rw [if_neg (not_not.mpr algo)]
          cases rest : collectSigners cert tail with
          | error e =>
              have blocked := fun pks => (ih pks).symm.trans (by rw [rest])
              constructor
              · intro failed
                cases failed
              · intro ⟨algos, _⟩
                have none := (blocked _).mp ⟨fun item member => algos item (List.mem_cons_of_mem _ member), rfl⟩
                cases none
          | ok pks =>
              obtain ⟨algos, collected⟩ := (ih pks).mp rest
              simp only [Except.ok.injEq, List.map_cons, List.mem_cons, forall_eq_or_imp, algo, true_and, ← collected]
              exact ⟨fun same => ⟨algos, same.symm⟩, fun both => both.2.symm⟩
        · rw [if_pos algo]
          constructor
          · intro failed
            cases failed
          · intro ⟨algos, _⟩
            exact absurd (algos (member, i) List.mem_cons_self) algo
      · rw [if_pos (by simp [signed]), List.filter_cons_of_neg (by exact signed)]
        exact ih signerPks

section
variable [HashFns] [BlsFns]

def SignatureHolds (committee : Committee) (cert : AggregatedFinalizationCert) : Prop :=
  ∃ aggPk, BlsFns.aggregatePubkeys ((signerSlots committee cert).map fun item => item.1.pubkey) = .ok aggPk ∧
    BlsFns.verifyAggregated aggPk cert.aggSig cert.signingPayload.toList = .ok ()

structure OtherwiseValid (committee : Committee) (cert : AggregatedFinalizationCert) : Prop where
  epoch : cert.committeeEpoch = committee.epoch
  aggAlgo : cert.aggSigAlgo = 5
  algos : ∀ item ∈ signerSlots committee cert, item.1.sigAlgo = 5
  signed : signerSlots committee cert ≠ []
  signature : SignatureHolds committee cert

theorem verify_aggregated_cert_ok (committee : Committee) (cert : AggregatedFinalizationCert) :
    verifyAggregatedCert committee cert = .ok () ↔
      committee.quorum ≤ cert.signerCount ∧ OtherwiseValid committee cert := by
  simp only [verifyAggregatedCert]
  constructor
  · intro accepted
    split at accepted
    · cases accepted
    · rename_i epoch
      split at accepted
      · cases accepted
      · rename_i quorum
        split at accepted
        · cases accepted
        · rename_i aggAlgo
          split at accepted
          · cases accepted
          · rename_i signerPks collected
            obtain ⟨algos, pks⟩ := (collect_signers_ok ..).mp collected
            split at accepted
            · cases accepted
            · rename_i present
              split at accepted
              · cases accepted
              · rename_i aggPk aggregated
                split at accepted
                · cases accepted
                · rename_i verified
                  refine ⟨BitVec.not_lt.mp quorum, not_not.mp epoch, not_not.mp aggAlgo, algos, ?_, aggPk, ?_, verified⟩
                  · intro none
                    apply present
                    rw [pks, ← signerSlots, none]
                    rfl
                  · rw [signerSlots, ← pks]
                    exact aggregated
  · intro ⟨quorum, valid⟩
    obtain ⟨aggPk, aggregated, verified⟩ := valid.signature
    have collected := (collect_signers_ok cert committee.members.zipIdx _).mpr ⟨valid.algos, rfl⟩
    have present : ((signerSlots committee cert).map fun item => item.1.pubkey).isEmpty = false := by
      simp [valid.signed]
    rw [if_neg (not_not.mpr valid.epoch), if_neg (BitVec.not_lt.mpr quorum), if_neg (not_not.mpr valid.aggAlgo), collected]
    dsimp only
    rw [← signerSlots, present, aggregated]
    dsimp only
    rw [verified]
    rfl

def BackedByQuorum (committee : Committee) (cert : AggregatedFinalizationCert) : Prop :=
  ∃ signerPks, collectSigners cert committee.members.zipIdx = .ok signerPks ∧
    ∃ slots : List Nat, slots.Nodup ∧ committee.quorum.toNat ≤ slots.length ∧
      ∀ i ∈ slots, cert.isSigner i = true ∧ ∃ member, committee.members[i]? = some member ∧ member.pubkey ∈ signerPks

omit [HashFns] [BlsFns] in
theorem signer_slots_indices (committee : Committee) (cert : AggregatedFinalizationCert) (i : Nat) :
    i ∈ (signerSlots committee cert).map Prod.snd ↔ i < committee.members.length ∧ cert.isSigner i = true := by
  rw [List.mem_map]
  constructor
  · intro ⟨item, member, index⟩
    obtain ⟨inside, signed⟩ := List.mem_filter.mp member
    have found := List.mem_zipIdx_iff_getElem?.mp inside
    rw [index] at found signed
    exact ⟨(List.getElem?_eq_some_iff.mp found).1, signed⟩
  · intro ⟨bound, signed⟩
    refine ⟨(committee.members[i], i), List.mem_filter.mpr ⟨?_, signed⟩, rfl⟩
    exact List.mem_zipIdx_iff_getElem?.mpr (List.getElem?_eq_getElem bound)

omit [HashFns] [BlsFns] in
theorem signer_slots_nodup (committee : Committee) (cert : AggregatedFinalizationCert) :
    ((signerSlots committee cert).map Prod.snd).Nodup := by
  have indices : (committee.members.zipIdx.map Prod.snd).Nodup := by
    rw [List.zipIdx_map_snd]
    exact List.nodup_range'
  exact indices.sublist (List.filter_sublist.map Prod.snd)

omit [HashFns] [BlsFns] in
theorem backed_iff (committee : Committee) (cert : AggregatedFinalizationCert)
    (algos : ∀ item ∈ signerSlots committee cert, item.1.sigAlgo = 5) :
    BackedByQuorum committee cert ↔ committee.quorum.toNat ≤ (signerSlots committee cert).length := by
  constructor
  · intro ⟨signerPks, _, slots, distinct, enough, backed⟩
    have inside : slots ⊆ (signerSlots committee cert).map Prod.snd := by
      intro i member
      obtain ⟨signed, owner, found, _⟩ := backed i member
      exact (signer_slots_indices committee cert i).mpr ⟨(List.getElem?_eq_some_iff.mp found).1, signed⟩
    have fewer := (List.subperm_of_subset distinct inside).length_le
    rw [List.length_map] at fewer
    exact enough.trans fewer
  · intro enough
    refine ⟨_, (collect_signers_ok ..).mpr ⟨algos, rfl⟩, (signerSlots committee cert).map Prod.snd,
      signer_slots_nodup committee cert, by rwa [List.length_map], ?_⟩
    intro i member
    obtain ⟨item, inside, index⟩ := List.mem_map.mp member
    have found := List.mem_zipIdx_iff_getElem?.mp (List.mem_filter.mp inside).1
    rw [index] at found
    exact ⟨((signer_slots_indices committee cert i).mp member).2, item.1, found, List.mem_map_of_mem inside⟩

def StrayQuorum (committee : Committee) (cert : AggregatedFinalizationCert) : Prop :=
  (signerSlots committee cert).length < committee.quorum.toNat ∧ committee.quorum ≤ cert.signerCount ∧
    OtherwiseValid committee cert

theorem accepted_backed_iff (committee : Committee) (cert : AggregatedFinalizationCert) :
    (verifyAggregatedCert committee cert = .ok () → BackedByQuorum committee cert) ↔ ¬ StrayQuorum committee cert := by
  rw [verify_aggregated_cert_ok]
  constructor
  · intro backed ⟨few, quorum, valid⟩
    exact absurd ((backed_iff committee cert valid.algos).mp (backed ⟨quorum, valid⟩)) (Nat.not_le.mpr few)
  · intro clean ⟨quorum, valid⟩
    apply (backed_iff committee cert valid.algos).mpr
    by_contra few
    exact clean ⟨Nat.not_le.mp few, quorum, valid⟩

end

end PyGrove.Finality

namespace PyGrove.Sample

open Words PyGrove.Core Crypto Finality

scoped instance bls : BlsFns where
  aggregatePubkeys := fun pks =>
    if pks.isEmpty || pks.any (fun pk => pk.length ≠ 48) then .error .malformed else .ok pks.flatten
  verifyAggregated := fun aggVk aggSig msg => if aggSig = aggVk ++ msg then .ok () else .error .badSignature

end PyGrove.Sample

namespace PyGrove.Finality

open Words PyGrove.Core Sample

theorem padding_bits_reach_quorum :
    let member := fun (i : U8) => ValidatorPubkey.mk (.replicate 32 i) 5 (List.replicate 48 i)
    let committee : Committee := { epoch := 1, members := [member 1, member 2, member 3, member 4, member 5], epochBlocks := 6, quorum := 5 }
    let unsigned : AggregatedFinalizationCert :=
      { committeeEpoch := 1, round := 1, blockHeight := 6, blockHash := .replicate 32 0, signerBitmap := [0xE3]
        aggSigAlgo := 5, aggSig := [] }
    let cert := { unsigned with
      aggSig := List.replicate 48 1 ++ List.replicate 48 2 ++ unsigned.signingPayload.toList }
    ¬ (verifyAggregatedCert committee cert = .ok () → BackedByQuorum committee cert) := by
  intro member committee unsigned cert backed
  have accepted : verifyAggregatedCert committee cert = .ok () := by decide +kernel
  have few : (signerSlots committee cert).length = 2 := by decide +kernel
  have algos : ∀ item ∈ signerSlots committee cert, item.1.sigAlgo = 5 := by decide +kernel
  have enough := (backed_iff committee cert algos).mp (backed accepted)
  rw [few] at enough
  exact absurd enough (by decide)

end PyGrove.Finality
