import PyGrove.Core.Cbor
import PyGrove.P2p.Broker

set_option autoImplicit false

/- What the hash of an envelope says about the message. -/
namespace PyGrove.P2p

open Words PyGrove.Core

def P2pPayload.hashed : P2pPayload → List U8
  | .blockHeader height headerHash => 1 :: leBytes 8 height.toNat ++ headerHash.toList
  | .txBytes txHash _ _ => 2 :: txHash.toList
  | .finalityVote voteHash _ => 3 :: voteHash.toList
  | .finalityCert certHash _ => 4 :: certHash.toList
  | .peerInfo headHeight _ _ => 5 :: leBytes 8 headHeight.toNat
  | .governanceAnnounce txHash _ => 6 :: txHash.toList
  | .attestation txHash _ => 7 :: txHash.toList

namespace P2pMessage

def signingPreimage (msg : P2pMessage) : List U8 :=
  ascii "PGp2pmsg\x00" ++ [msg.version] ++ msg.fromPeer.id.toList ++ leBytes 4 (utf8 msg.topic).length ++ utf8 msg.topic ++
    leBytes 8 msg.seq.toNat ++ msg.payload.hashed

def signingHash [HashFns] (msg : P2pMessage) : Bytes 32 := HashFns.blake3 msg.signingPreimage

end P2pMessage

inductive SamePayload : P2pPayload → P2pPayload → Prop where
  | blockHeader (height : U64) (headerHash : Bytes 32) :
      SamePayload (.blockHeader height headerHash) (.blockHeader height headerHash)
  | txBytes (txHash : Bytes 32) (txCbor txCbor' witnessCbor witnessCbor' : List U8) :
      SamePayload (.txBytes txHash txCbor witnessCbor) (.txBytes txHash txCbor' witnessCbor')
  | finalityVote (voteHash : Bytes 32) (voteCbor voteCbor' : List U8) :
      SamePayload (.finalityVote voteHash voteCbor) (.finalityVote voteHash voteCbor')
  | finalityCert (certHash : Bytes 32) (certCbor certCbor' : List U8) :
      SamePayload (.finalityCert certHash certCbor) (.finalityCert certHash certCbor')
  | peerInfo (headHeight : U64) (headHash : Bytes 32) (protocolVersion : U32) :
      SamePayload (.peerInfo headHeight headHash protocolVersion) (.peerInfo headHeight headHash protocolVersion)
  | governanceAnnounce (txHash : Bytes 32) (txCbor txCbor' : List U8) :
      SamePayload (.governanceAnnounce txHash txCbor) (.governanceAnnounce txHash txCbor')
  | attestation (txHash : Bytes 32) (txCbor txCbor' : List U8) :
      SamePayload (.attestation txHash txCbor) (.attestation txHash txCbor')

structure SameMessage (a b : P2pMessage) : Prop where
  version : a.version = b.version
  fromPeer : a.fromPeer = b.fromPeer
  topic : a.topic = b.topic
  seq : a.seq = b.seq
  payload : SamePayload a.payload b.payload

def TopicFits (msg : P2pMessage) : Prop := (utf8 msg.topic).length < 2 ^ 32

def Authenticated (msg : P2pMessage) : Prop :=
  ∀ other : P2pMessage, TopicFits other → msg.signingPreimage = other.signingPreimage → SameMessage msg other

def P2pPayload.isPeerInfo : P2pPayload → Bool
  | .peerInfo .. => true
  | _ => false

theorem envelope_read_back (a b : P2pMessage) (fitsA : TopicFits a) (fitsB : TopicFits b)
    (same : a.signingPreimage = b.signingPreimage) :
    a.version = b.version ∧ a.fromPeer = b.fromPeer ∧ a.topic = b.topic ∧ a.seq = b.seq ∧
      a.payload.hashed = b.payload.hashed := by
  simp only [P2pMessage.signingPreimage, List.append_assoc] at same
  obtain ⟨version, rest⟩ := List.append_inj (List.append_cancel_left same) (by simp)
  obtain ⟨peer, rest⟩ := List.append_inj rest (by simp)
  obtain ⟨length, rest⟩ := List.append_inj rest (by simp)
  have lengths := le_bytes_inj 4 _ _ fitsA fitsB length
  obtain ⟨topic, rest⟩ := List.append_inj rest lengths
  obtain ⟨seq, payload⟩ := List.append_inj rest (by simp)
  have peerEq : a.fromPeer = b.fromPeer := by
    cases ha : a.fromPeer
    cases hb : b.fromPeer
    rw [ha, hb] at peer
    exact congrArg PeerId.mk (List.Vector.eq _ _ peer)
  exact ⟨(List.cons.inj version).1, peerEq, utf8_inj _ _ topic, le_bytes_word_inj _ _ (by decide) seq, payload⟩

def P2pPayload.discriminator : P2pPayload → U8
  | .blockHeader .. => 1
  | .txBytes .. => 2
  | .finalityVote .. => 3
  | .finalityCert .. => 4
  | .peerInfo .. => 5
  | .governanceAnnounce .. => 6
  | .attestation .. => 7

theorem hashed_head (payload : P2pPayload) : payload.hashed.head? = some payload.discriminator := by
  cases payload <;> rfl

theorem payload_read_back (a b : P2pPayload) (other : a.isPeerInfo = false) (same : a.hashed = b.hashed) : SamePayload a b := by
  have kinds : a.discriminator = b.discriminator := by
    apply Option.some.inj
    rw [← hashed_head, ← hashed_head, same]
  cases a with
  | blockHeader height headerHash =>
      cases b with
      | blockHeader height' headerHash' =>
          simp only [P2pPayload.hashed, List.cons_append] at same
          obtain ⟨heights, hashes⟩ := List.append_inj (List.cons.inj same).2 (by simp)
          rw [le_bytes_word_inj height height' (by decide) heights, List.Vector.eq _ _ hashes]
          exact .blockHeader height' headerHash'
      | _ => simp [P2pPayload.discriminator] at kinds
  | txBytes txHash txCbor witnessCbor =>
      cases b with
      | txBytes txHash' txCbor' witnessCbor' =>
          rw [List.Vector.eq _ _ (List.cons.inj same).2]
          exact .txBytes txHash' txCbor txCbor' witnessCbor witnessCbor'
      | _ => simp [P2pPayload.discriminator] at kinds
  | finalityVote voteHash voteCbor =>
      cases b with
      | finalityVote voteHash' voteCbor' =>
          rw [List.Vector.eq _ _ (List.cons.inj same).2]
          exact .finalityVote voteHash' voteCbor voteCbor'
      | _ => simp [P2pPayload.discriminator] at kinds
  | finalityCert certHash certCbor =>
      cases b with
      | finalityCert certHash' certCbor' =>
          rw [List.Vector.eq _ _ (List.cons.inj same).2]
          exact .finalityCert certHash' certCbor certCbor'
      | _ => simp [P2pPayload.discriminator] at kinds
  | peerInfo headHeight headHash protocolVersion => cases other
  | governanceAnnounce txHash txCbor =>
      cases b with
      | governanceAnnounce txHash' txCbor' =>
          rw [List.Vector.eq _ _ (List.cons.inj same).2]
          exact .governanceAnnounce txHash' txCbor txCbor'
      | _ => simp [P2pPayload.discriminator] at kinds
  | attestation txHash txCbor =>
      cases b with
      | attestation txHash' txCbor' =>
          rw [List.Vector.eq _ _ (List.cons.inj same).2]
          exact .attestation txHash' txCbor txCbor'
      | _ => simp [P2pPayload.discriminator] at kinds

theorem peer_info_read_back (headHeight : U64) (headHash : Bytes 32) (protocolVersion : U32) (b : P2pPayload) :
    (P2pPayload.peerInfo headHeight headHash protocolVersion).hashed = b.hashed ↔
      ∃ headHash' protocolVersion', b = .peerInfo headHeight headHash' protocolVersion' := by
  constructor
  · intro same
    have kinds : b.discriminator = 5 := by
      apply Option.some.inj
      rw [← hashed_head, ← same]
      rfl
    cases b with
    | peerInfo headHeight' headHash' protocolVersion' =>
        rw [le_bytes_word_inj headHeight headHeight' (by decide) (List.cons.inj same).2]
        exact ⟨headHash', protocolVersion', rfl⟩
    | _ => simp [P2pPayload.discriminator] at kinds
  · rintro ⟨headHash', protocolVersion', rfl⟩
    rfl

theorem same_peer_info (headHeight headHeight' : U64) (headHash headHash' : Bytes 32) (protocolVersion protocolVersion' : U32)
    (same : SamePayload (.peerInfo headHeight headHash protocolVersion) (.peerInfo headHeight' headHash' protocolVersion')) :
    protocolVersion = protocolVersion' := by
  cases same
  rfl

theorem authenticated_iff (msg : P2pMessage) (fits : TopicFits msg) : Authenticated msg ↔ msg.payload.isPeerInfo = false := by
  constructor
  · intro authenticated
    cases payload : msg.payload with
    | peerInfo headHeight headHash protocolVersion =>
        let relayed : P2pMessage := { msg with payload := .peerInfo headHeight headHash (protocolVersion + 1) }
        have unseen : msg.signingPreimage = relayed.signingPreimage := by
          rw [P2pMessage.signingPreimage, P2pMessage.signingPreimage, payload]
          rfl
        have same := (authenticated relayed fits unseen).payload
        rw [payload] at same
        have kept := same_peer_info _ _ _ _ _ _ same
        simp at kept
    | _ => rfl
  · intro other b fitsB same
    obtain ⟨version, fromPeer, topic, seq, payload⟩ := envelope_read_back msg b fits fitsB same
    exact ⟨version, fromPeer, topic, seq, payload_read_back msg.payload b.payload other payload⟩

end PyGrove.P2p

namespace PyGrove.Sample

open Words PyGrove.Core PyGrove.P2p

def announcement (payload : P2pPayload) : P2pMessage where
  version := wireVersion
  fromPeer := ⟨.replicate 32 1⟩
  topic := Topics.peerInfo
  seq := 7
  payload := payload

theorem announcement_fits (payload : P2pPayload) : TopicFits (announcement payload) := by
  show (utf8 Topics.peerInfo).length < 2 ^ 32
  decide

def atHead (headHash : Bytes 32) (protocolVersion : U32) : P2pMessage := announcement (.peerInfo 6 headHash protocolVersion)

end PyGrove.Sample

namespace PyGrove.P2p

open Words PyGrove.Core Sample

theorem header_announcement_authenticated :
    Authenticated (announcement (.blockHeader 6 (.replicate 32 0xAB))) ↔
      (P2pPayload.blockHeader 6 (.replicate 32 0xAB)).isPeerInfo = false :=
  authenticated_iff (announcement (.blockHeader 6 (.replicate 32 0xAB))) (announcement_fits _)

theorem head_hash_unsigned :
    TopicFits (atHead (.replicate 32 0xAB) 1) ∧ TopicFits (atHead (.replicate 32 0xCD) 2) ∧
      (atHead (.replicate 32 0xAB) 1).signingPreimage = (atHead (.replicate 32 0xCD) 2).signingPreimage ∧
      (atHead (.replicate 32 0xAB) 1).payload ≠ (atHead (.replicate 32 0xCD) 2).payload ∧
      ¬ Authenticated (atHead (.replicate 32 0xAB) 1) := by
  refine ⟨announcement_fits _, announcement_fits _, rfl, by decide, ?_⟩
  intro authenticated
  cases (authenticated (atHead (.replicate 32 0xCD) 2) (announcement_fits _) rfl).payload

end PyGrove.P2p
