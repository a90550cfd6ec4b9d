import PyGrove.Finality.Aggregate
import PyGrove.Lib.Quorum

set_option autoImplicit false

namespace PyGrove.Finality

open Words PyGrove.Core Crypto

def bitAt (bitmap : List U8) (index : Nat) : Bool :=
  match bitmap[index / 8]? with
  | some byte => (byte >>> (index % 8)) &&& 1 == 1
  | none => false

theorem byte_bits (byte : U8) : ((List.range 8).countP fun i => (byte >>> i) &&& 1 == 1) = byte.cpop.toNat := by
  revert byte
  decide +kernel

theorem bit_at_first (byte : U8) (tail : List U8) (index : Nat) (first : index < 8) :
    bitAt (byte :: tail) index = ((byte >>> index) &&& 1 == 1) := by
  rw [bitAt, Nat.div_eq_of_lt first, Nat.mod_eq_of_lt first]
  rfl

theorem bit_at_later (byte : U8) (tail : List U8) (index : Nat) :
    bitAt (byte :: tail) (8 + index) = bitAt tail index := by
  rw [bitAt, Nat.add_comm, Nat.add_div_right index (by decide), Nat.add_mod_right, List.getElem?_cons_succ, bitAt]

theorem bitmap_bits (bitmap : List U8) :
    (List.range (8 * bitmap.length)).countP (bitAt bitmap) = (bitmap.map fun byte => byte.cpop.toNat).sum := by
  induction bitmap with
  | nil => rfl
  | cons byte tail ih =>
      have first : (List.range 8).countP (bitAt (byte :: tail)) = byte.cpop.toNat := by
        rw [← byte_bits byte]
        apply List.countP_congr
        intro i inside
        rw [bit_at_first byte tail i (List.mem_range.mp inside)]
      have later : bitAt (byte :: tail) ∘ (8 + ·) = bitAt tail := funext (bit_at_later byte tail)
      rw [List.length_cons, Nat.mul_succ, Nat.add_comm, List.range_add, List.countP_append, first, List.countP_map,
        later, ih, List.map_cons, List.sum_cons]

namespace AggregatedFinalizationCert

theorem signer_count_le (cert : AggregatedFinalizationCert) :
    cert.signerCount.toNat ≤ (List.range (8 * cert.signerBitmap.length)).countP cert.isSigner := by
  have counted : ∀ (bitmap : List U8) (count : U32),
      (bitmap.foldl (fun count byte => count + byte.cpop.setWidth 32) count).toNat ≤
        count.toNat + (bitmap.map fun byte => byte.cpop.toNat).sum := by
    intro bitmap
    induction bitmap with
    | nil => exact fun count => Nat.le_refl _
    | cons byte tail ih =>
        intro count
        have step : (count + byte.cpop.setWidth 32).toNat ≤ count.toNat + byte.cpop.toNat := by
          rw [BitVec.toNat_add, BitVec.toNat_setWidth_of_le (by decide)]
          exact Nat.mod_le _ _
        have rest := ih (count + byte.cpop.setWidth 32)
        rw [List.foldl_cons, List.map_cons, List.sum_cons]
        omega
  have total := counted cert.signerBitmap 0
  rw [show cert.isSigner = bitAt cert.signerBitmap from rfl, bitmap_bits]
  rwa [show (0 : U32).toNat = 0 from rfl, Nat.zero_add] at total

def strayBits (cert : AggregatedFinalizationCert) (committee : Committee) : Nat :=
  (List.range (8 * cert.signerBitmap.length)).countP fun i => decide (committee.members.length ≤ i) && cert.isSigner i

def slots (cert : AggregatedFinalizationCert) (committee : Committee) : List Nat :=
  (signerSlots committee cert).map Prod.snd

theorem set_bits_split (cert : AggregatedFinalizationCert) (committee : Committee) :
    (List.range (8 * cert.signerBitmap.length)).countP cert.isSigner ≤
      (cert.slots committee).length + cert.strayBits committee := by
  have inside : ((List.range (8 * cert.signerBitmap.length)).filter fun i =>
      decide (i < committee.members.length) && cert.isSigner i).length ≤ (cert.slots committee).length := by
    refine (List.subperm_of_subset (List.nodup_range.filter _) fun i member => ?_).length_le
    have both := (List.mem_filter.mp member).2
    rw [Bool.and_eq_true, decide_eq_true_eq] at both
    exact (signer_slots_indices committee cert i).mpr both
  have split := List.length_eq_length_filter_add (l := (List.range (8 * cert.signerBitmap.length)).filter cert.isSigner)
    fun i => decide (i < committee.members.length)
  have stray : (fun i => !decide (i < committee.members.length) && cert.isSigner i) =
      fun i => decide (committee.members.length ≤ i) && cert.isSigner i := by
    funext i
    rw [← decide_not, decide_eq_decide.mpr Nat.not_lt]
  rw [List.filter_filter, List.filter_filter, stray] at split
  rw [List.countP_eq_length_filter, split, strayBits, List.countP_eq_length_filter]
  exact Nat.add_le_add_right inside _

def signingPreimage (cert : AggregatedFinalizationCert) : List U8 :=
  ascii "PGfinalagg\x00" ++ leBytes 8 cert.committeeEpoch.toNat ++ leBytes 8 cert.round.toNat ++
    leBytes 8 cert.blockHeight.toNat ++ cert.blockHash.toList

theorem signing_preimage_block (a b : AggregatedFinalizationCert) (same : a.signingPreimage = b.signingPreimage) :
    a.blockHash = b.blockHash := by
  rw [signingPreimage, signingPreimage] at same
  exact List.Vector.eq _ _ (List.append_inj_right' same (by simp))

end AggregatedFinalizationCert

section
open AggregatedFinalizationCert
variable [HashFns] [BlsFns]

structure CoSigned (committee : Committee) (cert : AggregatedFinalizationCert) (member : ValidatorPubkey) : Prop where
  algo : member.sigAlgo = 5
  signed : ∃ signerPks aggPk, collectSigners cert committee.members.zipIdx = .ok signerPks ∧ member.pubkey ∈ signerPks ∧
    BlsFns.aggregatePubkeys signerPks = .ok aggPk ∧
      BlsFns.verifyAggregated aggPk cert.aggSig (HashFns.blake3 cert.signingPreimage).toList = .ok ()

theorem slot_co_signed (committee : Committee) (cert : AggregatedFinalizationCert)
    (valid : OtherwiseValid committee cert) (i : Nat) (flagged : i ∈ cert.slots committee) :
    ∃ member, committee.members[i]? = some member ∧ CoSigned committee cert member := by
  obtain ⟨item, inside, rfl⟩ := List.mem_map.mp flagged
  obtain ⟨aggPk, aggregated, verified⟩ := valid.signature
  have collected := (collect_signers_ok cert committee.members.zipIdx _).mpr ⟨valid.algos, rfl⟩
  exact ⟨item.1, List.mem_zipIdx_iff_getElem?.mp (List.mem_filter.mp inside).1, valid.algos item inside, _, aggPk,
    collected, List.mem_map.mpr ⟨item, inside, rfl⟩, aggregated, verified⟩

theorem accepted_slots (committee : Committee) (cert : AggregatedFinalizationCert)
    (accepted : verifyAggregatedCert committee cert = .ok ()) :
    committee.quorum.toNat ≤ (cert.slots committee).length + cert.strayBits committee := by
  have quorum := ((verify_aggregated_cert_ok committee cert).mp accepted).1
  rw [BitVec.le_def] at quorum
  exact quorum.trans ((cert.signer_count_le).trans (cert.set_bits_split committee))

theorem unstrayed_backed (committee : Committee) (cert : AggregatedFinalizationCert)
    (accepted : verifyAggregatedCert committee cert = .ok ()) (inside : cert.strayBits committee = 0) :
    BackedByQuorum committee cert := by
  have valid := ((verify_aggregated_cert_ok committee cert).mp accepted).2
  have enough := accepted_slots committee cert accepted
  rw [inside, Nat.add_zero, slots, List.length_map] at enough
  exact (backed_iff committee cert valid.algos).mpr enough

theorem conflicting_aggregates_expose (committee : Committee) (a b : AggregatedFinalizationCert)
    (acceptedA : verifyAggregatedCert committee a = .ok ()) (acceptedB : verifyAggregatedCert committee b = .ok ())
    (conflict : a.blockHash ≠ b.blockHash) :
    a.signingPreimage ≠ b.signingPreimage ∧
      ∃ slots : List Nat, slots.Nodup ∧
        2 * committee.quorum.toNat ≤
          committee.members.length + slots.length + (a.strayBits committee + b.strayBits committee) ∧
        ∀ i ∈ slots, ∃ member, committee.members[i]? = some member ∧ CoSigned committee a member ∧
          CoSigned committee b member := by
  have enoughA := accepted_slots committee a acceptedA
  have enoughB := accepted_slots committee b acceptedB
  have validA := ((verify_aggregated_cert_ok committee a).mp acceptedA).2
  have validB := ((verify_aggregated_cert_ok committee b).mp acceptedB).2
  have inside (cert : AggregatedFinalizationCert) : cert.slots committee ⊆ List.range committee.members.length :=
    fun i member => List.mem_range.mpr ((signer_slots_indices committee cert i).mp member).1
  have overlap := Quorum.shared_overlap (List.range committee.members.length) (a.slots committee) (b.slots committee)
    (signer_slots_nodup committee a) (signer_slots_nodup committee b) (inside a) (inside b)
  rw [List.length_range] at overlap
  refine ⟨fun same => conflict (signing_preimage_block a b same), Quorum.shared (a.slots committee) (b.slots committee),
    Quorum.shared_nodup _ _ (signer_slots_nodup committee a), by omega, fun i member => ?_⟩
  obtain ⟨inA, inB⟩ := (Quorum.mem_shared _ _ i).mp member
  obtain ⟨owner, found, signedA⟩ := slot_co_signed committee a validA i inA
  obtain ⟨other, sameSlot, signedB⟩ := slot_co_signed committee b validB i inB
  rw [found] at sameSlot
  cases sameSlot
  exact ⟨owner, found, signedA, signedB⟩

end

end PyGrove.Finality

namespace PyGrove.Sample

open Words PyGrove.Core Finality

def blsMember (i : U8) : ValidatorPubkey := ⟨.replicate 32 i, 5, List.replicate 48 i⟩

def blsCommittee : Committee where
  epoch := 1
  members := [blsMember 1, blsMember 2, blsMember 3, blsMember 4, blsMember 5]
  epochBlocks := 6
  quorum := 4

def aggregate (block : U8) (bitmap : U8) (signers : List U8) : AggregatedFinalizationCert :=
  let unsigned : AggregatedFinalizationCert :=
    { committeeEpoch := 1, round := 1, blockHeight := 6, blockHash := .replicate 32 block, signerBitmap := [bitmap]
      aggSigAlgo := 5, aggSig := [] }
  { unsigned with
    aggSig := (signers.map fun i => List.replicate 48 i).flatten ++ unsigned.signingPayload.toList }

end PyGrove.Sample

namespace PyGrove.Finality

open Words PyGrove.Core AggregatedFinalizationCert Sample

theorem split_committee_exposed :
    let a := aggregate 1 0x0F [1, 2, 3, 4]
    let b := aggregate 2 0x1E [2, 3, 4, 5]
    a.signingPreimage ≠ b.signingPreimage ∧
      ∃ slots : List Nat, slots.Nodup ∧
        2 * blsCommittee.quorum.toNat ≤
          blsCommittee.members.length + slots.length + (a.strayBits blsCommittee + b.strayBits blsCommittee) ∧
        ∀ i ∈ slots, ∃ member, blsCommittee.members[i]? = some member ∧ CoSigned blsCommittee a member ∧
          CoSigned blsCommittee b member :=
  conflicting_aggregates_expose blsCommittee (aggregate 1 0x0F [1, 2, 3, 4]) (aggregate 2 0x1E [2, 3, 4, 5])
    (by decide +kernel) (by decide +kernel) (by decide)

end PyGrove.Finality
