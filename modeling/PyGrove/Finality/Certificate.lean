import PyGrove.Lib.Quorum
import PyGrove.Lib.Steps
import PyGrove.Finality.Aggregate

set_option autoImplicit false

namespace PyGrove.Finality

open Words Steps PyGrove.Core Crypto

structure FinalizationVote where
  committeeEpoch : U64
  round : U64
  blockHeight : U64
  blockHash : Bytes 32
  validatorId : Bytes 32
  sigAlgo : U8
  sig : List U8
deriving DecidableEq

namespace FinalizationVote

def signingPreimage (vote : FinalizationVote) : List U8 :=
  ascii "PGfinal\x00" ++ leBytes 8 vote.committeeEpoch.toNat ++ leBytes 8 vote.round.toNat ++
    leBytes 8 vote.blockHeight.toNat ++ vote.blockHash.toList ++ vote.validatorId.toList

def signingHash [HashFns] (vote : FinalizationVote) : Bytes 32 := HashFns.blake3 vote.signingPreimage

theorem signing_preimage_block (a b : FinalizationVote) (same : a.signingPreimage = b.signingPreimage) :
    a.blockHash = b.blockHash := by
  rw [signingPreimage, signingPreimage] at same
  have hashed := (List.append_inj_left' same (by simp))
  exact List.Vector.eq _ _ (List.append_inj_right' hashed (by simp))

end FinalizationVote

structure FinalizationCert where
  committeeEpoch : U64
  round : U64
  blockHeight : U64
  blockHash : Bytes 32
  votes : List FinalizationVote
deriving DecidableEq

def Committee.memberOf (committee : Committee) (id : Bytes 32) : Option ValidatorPubkey :=
  committee.members.find? fun member => member.validatorId = id

section
variable [HashFns] [SigFns]

def verifyVote (committee : Committee) (vote : FinalizationVote) : Except FinalityError Unit :=
  if vote.committeeEpoch ≠ committee.epoch then .error (.epochMismatch vote.committeeEpoch committee.epoch)
  else
    match committee.memberOf vote.validatorId with
    | none => .error (.notInCommittee vote.validatorId)
    | some member =>
        if member.sigAlgo ≠ vote.sigAlgo then .error (.algoMismatch vote.sigAlgo)
        else
          match SigFns.verify vote.sigAlgo member.pubkey vote.sig vote.signingHash.toList with
          | .error _ => .error (.badSignature vote.validatorId)
          | .ok () => .ok ()

def checkVote (committee : Committee) (cert : FinalizationCert) (seen : List (Bytes 32)) (vote : FinalizationVote) :
    Except FinalityError (List (Bytes 32)) :=
  if vote.round ≠ cert.round then .error (.wrongRound vote.validatorId cert.round vote.round)
  else if vote.blockHash ≠ cert.blockHash ∨ vote.blockHeight ≠ cert.blockHeight then
    .error (.wrongBlockHash vote.validatorId)
  else if seen.contains vote.validatorId then .error (.duplicateVote vote.validatorId)
  else
    match verifyVote committee vote with
    | .error e => .error e
    | .ok () => .ok (vote.validatorId :: seen)

def verifyCert (committee : Committee) (cert : FinalizationCert) : Except FinalityError Unit :=
  if cert.committeeEpoch ≠ committee.epoch then .error (.epochMismatch cert.committeeEpoch committee.epoch)
  else if cert.votes.length < committee.quorum.toNat then
    .error (.belowQuorum (BitVec.ofNat 32 cert.votes.length) committee.quorum)
  else (runSteps (checkVote committee cert) [] cert.votes).2

structure SignedVote (committee : Committee) (member : ValidatorPubkey) (vote : FinalizationVote) : Prop where
  epoch : vote.committeeEpoch = committee.epoch
  found : committee.memberOf vote.validatorId = some member
  algo : member.sigAlgo = vote.sigAlgo
  verified : SigFns.verify member.sigAlgo member.pubkey vote.sig vote.signingHash.toList = .ok ()

theorem verify_vote_ok (committee : Committee) (vote : FinalizationVote) :
    verifyVote committee vote = .ok () ↔ ∃ member, SignedVote committee member vote := by
  rw [verifyVote, guard_ok, not_not]
  constructor
  · rintro ⟨epoch, accepted⟩
    split at accepted
    · cases accepted
    · rename_i member found
      rw [guard_ok, not_not] at accepted
      obtain ⟨algo, accepted⟩ := accepted
      split at accepted
      · cases accepted
      · rename_i verified
        exact ⟨member, epoch, found, algo, algo ▸ verified⟩
  · rintro ⟨member, epoch, found, algo, verified⟩
    refine ⟨epoch, ?_⟩
    rw [found]
    dsimp only
    rw [guard_ok, not_not, ← algo, verified]
    exact ⟨rfl, rfl⟩

structure VoteFor (committee : Committee) (cert : FinalizationCert) (vote : FinalizationVote) : Prop where
  round : vote.round = cert.round
  blockHash : vote.blockHash = cert.blockHash
  blockHeight : vote.blockHeight = cert.blockHeight
  signed : ∃ member, SignedVote committee member vote

theorem check_vote_ok (committee : Committee) (cert : FinalizationCert) (seen next : List (Bytes 32))
    (vote : FinalizationVote) :
    checkVote committee cert seen vote = .ok next ↔
      VoteFor committee cert vote ∧ vote.validatorId ∉ seen ∧ next = vote.validatorId :: seen := by
  rw [checkVote, guard_ok, guard_ok, guard_ok, not_not, not_or, not_not, not_not, List.contains_iff_mem]
  cases verified : verifyVote committee vote with
  | error e =>
      have unsigned : ¬ ∃ member, SignedVote committee member vote := by
        rw [← verify_vote_ok, verified]
        simp
      constructor
      · rintro ⟨_, _, _, accepted⟩
        cases accepted
      · rintro ⟨valid, _, _⟩
        exact absurd valid.signed unsigned
  | ok passed =>
      have signed := (verify_vote_ok committee vote).mp verified
      constructor
      · rintro ⟨round, ⟨hash, height⟩, fresh, accepted⟩
        cases accepted
        exact ⟨⟨round, hash, height, signed⟩, fresh, rfl⟩
      · rintro ⟨valid, fresh, rfl⟩
        exact ⟨valid.round, ⟨valid.blockHash, valid.blockHeight⟩, fresh, rfl⟩

theorem check_votes_ok (committee : Committee) (cert : FinalizationCert) (seen : List (Bytes 32))
    (votes : List FinalizationVote) :
    (runSteps (checkVote committee cert) seen votes).2 = .ok () ↔
      (∀ vote ∈ votes, VoteFor committee cert vote) ∧ (votes.map FinalizationVote.validatorId).Nodup ∧
        ∀ vote ∈ votes, vote.validatorId ∉ seen := by
  induction votes generalizing seen with
  | nil => simp [runSteps]
  | cons vote tail ih =>
      cases taken : checkVote committee cert seen vote with
      | error e =>
          rw [run_steps_cons_error _ _ _ _ e taken]
          constructor
          · intro accepted
            cases accepted
          · rintro ⟨valid, _, fresh⟩
            have passes := (check_vote_ok committee cert seen _ vote).mpr
              ⟨valid vote List.mem_cons_self, fresh vote List.mem_cons_self, rfl⟩
            rw [taken] at passes
            cases passes
      | ok next =>
          obtain ⟨valid, fresh, rfl⟩ := (check_vote_ok committee cert seen next vote).mp taken
          rw [run_steps_cons_ok _ _ _ _ _ taken, ih, List.map_cons, List.nodup_cons]
          simp only [List.mem_cons, forall_eq_or_imp, not_or, List.mem_map, not_exists, not_and]
          constructor
          · rintro ⟨rest, distinct, apart⟩
            exact ⟨⟨valid, rest⟩, ⟨fun other member => (apart other member).1, distinct⟩, fresh,
              fun other member => (apart other member).2⟩
          · rintro ⟨⟨_, rest⟩, ⟨own, distinct⟩, _, later⟩
            exact ⟨rest, distinct, fun other member => ⟨own other member, later other member⟩⟩

structure CertValid (committee : Committee) (cert : FinalizationCert) : Prop where
  epoch : cert.committeeEpoch = committee.epoch
  quorum : committee.quorum.toNat ≤ cert.votes.length
  votes : ∀ vote ∈ cert.votes, VoteFor committee cert vote
  distinct : (cert.votes.map FinalizationVote.validatorId).Nodup

theorem verify_cert_ok (committee : Committee) (cert : FinalizationCert) :
    verifyCert committee cert = .ok () ↔ CertValid committee cert := by
  rw [verifyCert, guard_ok, guard_ok, not_not, Nat.not_lt, check_votes_ok]
  constructor
  · rintro ⟨epoch, quorum, votes, distinct, _⟩
    exact ⟨epoch, quorum, votes, distinct⟩
  · intro valid
    exact ⟨valid.epoch, valid.quorum, valid.votes, valid.distinct, fun _ _ => List.not_mem_nil⟩

def FinalizationCert.signers (cert : FinalizationCert) : List (Bytes 32) :=
  cert.votes.map FinalizationVote.validatorId

theorem signers_in_committee (committee : Committee) (cert : FinalizationCert) (valid : CertValid committee cert) :
    cert.signers ⊆ committee.members.map ValidatorPubkey.validatorId := by
  intro id present
  obtain ⟨vote, member, rfl⟩ := List.mem_map.mp present
  obtain ⟨pubkey, signed⟩ := (valid.votes vote member).signed
  have named := List.find?_some signed.found
  exact List.mem_map.mpr ⟨pubkey, List.mem_of_find?_eq_some signed.found, by simpa using named⟩

structure Equivocates (committee : Committee) (height : U64) (a b : FinalizationCert) (id : Bytes 32)
    (member : ValidatorPubkey) (first second : FinalizationVote) : Prop where
  listed : member ∈ committee.members
  owns : member.validatorId = id
  inFirst : first ∈ a.votes
  inSecond : second ∈ b.votes
  firstBy : first.validatorId = id
  secondBy : second.validatorId = id
  firstHeight : first.blockHeight = height
  secondHeight : second.blockHeight = height
  blocks : first.blockHash ≠ second.blockHash
  payloads : first.signingPreimage ≠ second.signingPreimage
  firstVerified : SigFns.verify member.sigAlgo member.pubkey first.sig first.signingHash.toList = .ok ()
  secondVerified : SigFns.verify member.sigAlgo member.pubkey second.sig second.signingHash.toList = .ok ()

theorem shared_signer_equivocates (committee : Committee) (a b : FinalizationCert) (validA : CertValid committee a)
    (validB : CertValid committee b) (sameHeight : a.blockHeight = b.blockHeight) (conflict : a.blockHash ≠ b.blockHash)
    (id : Bytes 32) (inA : id ∈ a.signers) (inB : id ∈ b.signers) :
    ∃ member first second, Equivocates committee a.blockHeight a b id member first second := by
  obtain ⟨first, firstIn, rfl⟩ := List.mem_map.mp inA
  obtain ⟨second, secondIn, sameId⟩ := List.mem_map.mp inB
  have forA := validA.votes first firstIn
  have forB := validB.votes second secondIn
  obtain ⟨member, signed⟩ := forA.signed
  obtain ⟨other, signed'⟩ := forB.signed
  have same : member = other := by
    have found := signed'.found
    rw [sameId, signed.found] at found
    exact Option.some.inj found
  have blocks : first.blockHash ≠ second.blockHash := by
    rw [forA.blockHash, forB.blockHash]
    exact conflict
  have named := List.find?_some signed.found
  exact ⟨member, first, second,
    { listed := List.mem_of_find?_eq_some signed.found
      owns := by simpa using named
      inFirst := firstIn
      inSecond := secondIn
      firstBy := rfl
      secondBy := sameId
      firstHeight := forA.blockHeight
      secondHeight := forB.blockHeight.trans sameHeight.symm
      blocks
      payloads := fun payloads => blocks (FinalizationVote.signing_preimage_block first second payloads)
      firstVerified := signed.verified
      secondVerified := same ▸ signed'.verified }⟩

theorem conflicting_certs_expose (committee : Committee) (a b : FinalizationCert)
    (acceptedA : verifyCert committee a = .ok ()) (acceptedB : verifyCert committee b = .ok ())
    (sameHeight : a.blockHeight = b.blockHeight) (conflict : a.blockHash ≠ b.blockHash) :
    (∃ ids : List (Bytes 32), ids.Nodup ∧ 2 * committee.quorum.toNat - committee.members.length ≤ ids.length ∧
        ∀ id ∈ ids, ∃ member first second, Equivocates committee a.blockHeight a b id member first second) ∧
      (committee.members.length < 2 * committee.quorum.toNat →
        ∃ id member first second, Equivocates committee a.blockHeight a b id member first second) := by
  have validA := (verify_cert_ok committee a).mp acceptedA
  have validB := (verify_cert_ok committee b).mp acceptedB
  have overlap := Quorum.quorums_overlap (committee.members.map ValidatorPubkey.validatorId) a.signers b.signers
    committee.quorum.toNat validA.distinct validB.distinct (signers_in_committee committee a validA)
    (signers_in_committee committee b validB) (by rw [FinalizationCert.signers, List.length_map]; exact validA.quorum)
    (by rw [FinalizationCert.signers, List.length_map]; exact validB.quorum)
  rw [List.length_map] at overlap
  have exposed : ∀ id ∈ Quorum.shared a.signers b.signers,
      ∃ member first second, Equivocates committee a.blockHeight a b id member first second := by
    intro id member
    obtain ⟨inA, inB⟩ := (Quorum.mem_shared a.signers b.signers id).mp member
    exact shared_signer_equivocates committee a b validA validB sameHeight conflict id inA inB
  constructor
  · exact ⟨Quorum.shared a.signers b.signers, Quorum.shared_nodup a.signers b.signers validA.distinct, by omega, exposed⟩
  · intro majority
    have present : Quorum.shared a.signers b.signers ≠ [] := by
      intro empty
      rw [empty, List.length_nil] at overlap
      omega
    obtain ⟨id, member⟩ := List.exists_mem_of_ne_nil _ present
    exact ⟨id, exposed id member⟩

end

end PyGrove.Finality

namespace PyGrove.Sample

open Words PyGrove.Core Crypto Finality

def validator (i : U8) : ValidatorPubkey := ⟨.replicate 32 i, 3, List.replicate 32 i⟩

def vote (block i : U8) : FinalizationVote :=
  let unsigned : FinalizationVote :=
    { committeeEpoch := 1, round := 1, blockHeight := 6, blockHash := .replicate 32 block, validatorId := .replicate 32 i
      sigAlgo := 3, sig := [] }
  { unsigned with sig := sign 3 (List.replicate 32 i) unsigned.signingHash.toList }

def cert (block : U8) (voters : List U8) : FinalizationCert :=
  { committeeEpoch := 1, round := 1, blockHeight := 6, blockHash := .replicate 32 block, votes := voters.map (vote block) }

def trio : Committee := { epoch := 1, members := [validator 1, validator 2, validator 3], epochBlocks := 6, quorum := 2 }

end PyGrove.Sample

namespace PyGrove.Finality

open Words PyGrove.Core Sample

theorem trio_conflict_exposes :
    (∃ ids : List (Bytes 32), ids.Nodup ∧ 2 * trio.quorum.toNat - trio.members.length ≤ ids.length ∧
        ∀ id ∈ ids, ∃ member first second, Equivocates trio 6 (cert 1 [1, 2]) (cert 2 [3, 2]) id member first second) ∧
      (trio.members.length < 2 * trio.quorum.toNat →
        ∃ id member first second, Equivocates trio 6 (cert 1 [1, 2]) (cert 2 [3, 2]) id member first second) :=
  conflicting_certs_expose trio (cert 1 [1, 2]) (cert 2 [3, 2]) (by decide +kernel) (by decide +kernel) rfl (by decide)

end PyGrove.Finality
