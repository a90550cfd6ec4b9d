import PyGrove.Lib.HashMap
import PyGrove.Lib.Words

set_option autoImplicit false

namespace PyGrove.P2p

open Words HashMap

def wireVersion : U8 := 1

structure PeerId where
  id : Bytes 32
deriving DecidableEq

namespace Topics

def blockHeader : String := "pg/v1/block-header"
def compactBlock : String := "pg/v1/compact-block"
def tx : String := "pg/v1/tx"
def finalityVote : String := "pg/v1/finality-vote"
def finalityCert : String := "pg/v1/finality-cert"
def governance : String := "pg/v1/governance"
def peerInfo : String := "pg/v1/peer-info"
def attestation : String := "pg/v1/attestation"

def all : List String :=
  [blockHeader, compactBlock, tx, finalityVote, finalityCert, governance, peerInfo, attestation]

end Topics

inductive P2pPayload where
  | blockHeader (height : U64) (headerHash : Bytes 32)
  | txBytes (txHash : Bytes 32) (txCbor witnessCbor : List U8)
  | finalityVote (voteHash : Bytes 32) (voteCbor : List U8)
  | finalityCert (certHash : Bytes 32) (certCbor : List U8)
  | peerInfo (headHeight : U64) (headHash : Bytes 32) (protocolVersion : U32)
  | governanceAnnounce (txHash : Bytes 32) (txCbor : List U8)
  | attestation (txHash : Bytes 32) (txCbor : List U8)
deriving DecidableEq

structure P2pMessage where
  version : U8
  fromPeer : PeerId
  topic : String
  seq : U64
  payload : P2pPayload
deriving DecidableEq

inductive P2pError where
  | wireVersionMismatch (got expected : U8)
  | unknownTopic (topic : String)
deriving DecidableEq

-- What the mutex of the broker guards. Every call holds it to its end.
structure BrokerInner where
  subscriptions : Map PeerId (List String)
  inboxes : Map PeerId (List P2pMessage)

namespace BrokerInner

def new : BrokerInner := ⟨∅, ∅⟩

def topicsOf (inner : BrokerInner) (peer : PeerId) : List String := getOr [] inner.subscriptions peer

def inboxOf (inner : BrokerInner) (peer : PeerId) : List P2pMessage := getOr [] inner.inboxes peer

def join (inner : BrokerInner) (peer : PeerId) : BrokerInner where
  subscriptions := change [] inner.subscriptions peer id
  inboxes := change [] inner.inboxes peer id

def subscribe (inner : BrokerInner) (peer : PeerId) (topic : String) : BrokerInner × Except P2pError Unit :=
  if !Topics.all.contains topic then (inner, .error (.unknownTopic topic))
  else
    ({ inner with
        subscriptions := change [] inner.subscriptions peer fun subs => if subs.contains topic then subs else subs ++ [topic] },
      .ok ())

def recipients (inner : BrokerInner) (msg : P2pMessage) (walk : Walk PeerId (List String)) : List PeerId :=
  (((walk.arrange inner.subscriptions.entries).filter fun entry => entry.1 ≠ msg.fromPeer).filter fun entry =>
    entry.2.contains msg.topic).map Sigma.fst

def publish (inner : BrokerInner) (msg : P2pMessage) (walk : Walk PeerId (List String)) :
    BrokerInner × Except P2pError Unit :=
  if msg.version ≠ wireVersion then (inner, .error (.wireVersionMismatch msg.version wireVersion))
  else if !Topics.all.contains msg.topic then (inner, .error (.unknownTopic msg.topic))
  else
    ({ inner with
        inboxes := (inner.recipients msg walk).foldl (fun inboxes r => change [] inboxes r (· ++ [msg])) inner.inboxes },
      .ok ())

def recv (inner : BrokerInner) (peer : PeerId) : BrokerInner × List P2pMessage :=
  ({ inner with inboxes := change [] inner.inboxes peer fun _ => [] }, inner.inboxOf peer)

theorem recipients_nodup (inner : BrokerInner) (msg : P2pMessage) (walk : Walk PeerId (List String)) :
    (inner.recipients msg walk).Nodup := by
  refine (walk_keys_nodup walk inner.subscriptions).sublist ?_
  exact (List.filter_sublist.trans List.filter_sublist).map Sigma.fst

theorem mem_recipients (inner : BrokerInner) (msg : P2pMessage) (walk : Walk PeerId (List String)) (peer : PeerId) :
    peer ∈ inner.recipients msg walk ↔ msg.fromPeer ≠ peer ∧ msg.topic ∈ inner.topicsOf peer := by
  simp only [recipients, List.mem_map, List.mem_filter, decide_eq_true_eq, List.contains_iff_mem]
  constructor
  · rintro ⟨⟨found, subs⟩, ⟨⟨member, other⟩, subscribed⟩, rfl⟩
    rw [topicsOf, getOr, (mem_walk ..).mp member, Option.getD_some]
    exact ⟨fun same => other same.symm, subscribed⟩
  · rintro ⟨other, subscribed⟩
    cases held : inner.subscriptions.lookup peer with
    | none =>
        rw [topicsOf, getOr, held] at subscribed
        cases subscribed
    | some subs =>
        rw [topicsOf, getOr, held] at subscribed
        exact ⟨⟨peer, subs⟩, ⟨⟨(mem_walk ..).mpr held, fun same => other same.symm⟩, subscribed⟩, rfl⟩

theorem topics_of_join (inner : BrokerInner) (peer peer' : PeerId) : (inner.join peer).topicsOf peer' = inner.topicsOf peer' := by
  rw [topicsOf, join, get_or_change]
  split
  · rename_i same
    rw [same]
    rfl
  · rfl

theorem inbox_of_join (inner : BrokerInner) (peer peer' : PeerId) : (inner.join peer).inboxOf peer' = inner.inboxOf peer' := by
  rw [inboxOf, join, get_or_change]
  split
  · rename_i same
    rw [same]
    rfl
  · rfl

theorem topics_of_subscribe (inner : BrokerInner) (peer peer' : PeerId) (topic topic' : String) :
    topic' ∈ (inner.subscribe peer topic).1.topicsOf peer' ↔
      topic' ∈ inner.topicsOf peer' ∨ (topic ∈ Topics.all ∧ peer = peer' ∧ topic = topic') := by
  rw [subscribe]
  by_cases known : topic ∈ Topics.all
  · rw [if_neg (by simp [known]), topicsOf, get_or_change]
    by_cases same : peer' = peer
    · rw [if_pos same, same]
      change topic' ∈ (if (inner.topicsOf peer).contains topic then inner.topicsOf peer else inner.topicsOf peer ++ [topic]) ↔ _
      split
      · rename_i already
        simp only [known, true_and]
        constructor
        · exact Or.inl
        · rintro (held | rfl)
          · exact held
          · exact List.contains_iff_mem.mp already
      · rw [List.mem_append, List.mem_singleton]
        simp only [known, true_and, eq_comm]
    · rw [if_neg same]
      have apart : peer ≠ peer' := fun both => same both.symm
      simp only [apart, false_and, and_false, or_false]
      rfl
  · rw [if_pos (by simp [known])]
    simp only [known, false_and, or_false]

theorem inbox_of_publish (inner : BrokerInner) (msg : P2pMessage) (walk : Walk PeerId (List String)) (peer : PeerId) :
    (inner.publish msg walk).1.inboxOf peer =
      if (inner.publish msg walk).2 = .ok () ∧ msg.fromPeer ≠ peer ∧ msg.topic ∈ inner.topicsOf peer then
        inner.inboxOf peer ++ [msg]
      else inner.inboxOf peer := by
  rw [publish]
  by_cases version : msg.version ≠ wireVersion
  · simp [version]
  · rw [if_neg version]
    by_cases known : msg.topic ∈ Topics.all
    · rw [if_neg (by simp [known]), inboxOf, get_or_change_all _ _ _ _ _ (recipients_nodup inner msg walk)]
      simp only [mem_recipients, true_and]
      rfl
    · rw [if_pos (by simp [known])]
      simp

theorem topics_of_publish (inner : BrokerInner) (msg : P2pMessage) (walk : Walk PeerId (List String)) (peer : PeerId) :
    (inner.publish msg walk).1.topicsOf peer = inner.topicsOf peer := by
  rw [publish]
  split
  · rfl
  · split <;> rfl

theorem inbox_of_subscribe (inner : BrokerInner) (peer peer' : PeerId) (topic : String) :
    (inner.subscribe peer topic).1.inboxOf peer' = inner.inboxOf peer' := by
  rw [subscribe]
  split <;> rfl

theorem inbox_of_recv (inner : BrokerInner) (peer peer' : PeerId) :
    (inner.recv peer).1.inboxOf peer' = if peer' = peer then [] else inner.inboxOf peer' :=
  get_or_change ..

end BrokerInner

inductive BrokerCall where
  | join (peer : PeerId)
  | subscribe (peer : PeerId) (topic : String)
  | publish (msg : P2pMessage) (walk : Walk PeerId (List String))
  | recv (peer : PeerId)

inductive Event where
  | join (peer : PeerId)
  | subscribe (peer : PeerId) (topic : String) (result : Except P2pError Unit)
  | publish (msg : P2pMessage) (result : Except P2pError Unit)
  | recv (peer : PeerId) (messages : List P2pMessage)

def brokerCall (inner : BrokerInner) : BrokerCall → BrokerInner × Event
  | .join peer => (inner.join peer, .join peer)
  | .subscribe peer topic => ((inner.subscribe peer topic).1, .subscribe peer topic (inner.subscribe peer topic).2)
  | .publish msg walk => ((inner.publish msg walk).1, .publish msg (inner.publish msg walk).2)
  | .recv peer => ((inner.recv peer).1, .recv peer (inner.recv peer).2)

-- A run from the empty broker. Calls and events stand newest first.
def run : List BrokerCall → BrokerInner × List Event
  | [] => (.new, [])
  | call :: earlier =>
      let next := brokerCall (run earlier).1 call
      (next.1, next.2 :: (run earlier).2)

def failed : Event → Bool
  | .subscribe _ _ (.error _) => true
  | .publish _ (.error _) => true
  | _ => false

def subscribes (peer : PeerId) (topic : String) : Event → Bool
  | .subscribe subscriber name (.ok ()) => subscriber = peer && name = topic
  | _ => false

def received (peer : PeerId) : List Event → List P2pMessage
  | [] => []
  | .recv receiver messages :: past => if receiver = peer then received peer past ++ messages else received peer past
  | _ :: past => received peer past

def owed (peer : PeerId) : List Event → List P2pMessage
  | [] => []
  | .publish msg (.ok ()) :: past =>
      if msg.fromPeer ≠ peer ∧ past.any (subscribes peer msg.topic) then owed peer past ++ [msg] else owed peer past
  | _ :: past => owed peer past

theorem failed_changes_nothing (inner : BrokerInner) (call : BrokerCall) (fails : failed (brokerCall inner call).2 = true) :
    (brokerCall inner call).1 = inner := by
  cases call with
  | join peer => cases fails
  | recv peer => cases fails
  | subscribe peer topic =>
      simp only [brokerCall, BrokerInner.subscribe] at fails ⊢
      split
      · rfl
      · rename_i known
        rw [if_neg known] at fails
        cases fails
  | publish msg walk =>
      simp only [brokerCall, BrokerInner.publish] at fails ⊢
      split
      · rfl
      · rename_i version
        rw [if_neg version] at fails
        split
        · rfl
        · rename_i known
          rw [if_neg known] at fails
          cases fails

structure KeepsUp (peer : PeerId) (inner : BrokerInner) (past : List Event) : Prop where
  topics : ∀ topic, topic ∈ inner.topicsOf peer ↔ past.any (subscribes peer topic) = true
  messages : received peer past ++ inner.inboxOf peer = owed peer past

theorem subscribe_ok_iff (inner : BrokerInner) (peer : PeerId) (topic : String) :
    (inner.subscribe peer topic).2 = .ok () ↔ topic ∈ Topics.all := by
  rw [BrokerInner.subscribe]
  by_cases known : topic ∈ Topics.all <;> simp [known]

theorem subscribes_iff (peer subscriber : PeerId) (topic name : String) (result : Except P2pError Unit) :
    subscribes peer topic (.subscribe subscriber name result) = true ↔
      result = .ok () ∧ subscriber = peer ∧ name = topic := by
  cases result <;> simp [subscribes]

theorem owed_publish (peer : PeerId) (msg : P2pMessage) (result : Except P2pError Unit) (past : List Event) :
    owed peer (.publish msg result :: past) =
      if result = .ok () ∧ msg.fromPeer ≠ peer ∧ past.any (subscribes peer msg.topic) = true then owed peer past ++ [msg]
      else owed peer past := by
  cases result with
  | error e => simp [owed]
  | ok done => simp only [owed, true_and]

theorem call_keeps_up (peer : PeerId) (inner : BrokerInner) (past : List Event) (call : BrokerCall)
    (keeps : KeepsUp peer inner past) :
    KeepsUp peer (brokerCall inner call).1 ((brokerCall inner call).2 :: past) := by
  obtain ⟨topics, messages⟩ := keeps
  cases call with
  | join joined =>
      refine ⟨?_, ?_⟩
      · intro topic
        rw [brokerCall, BrokerInner.topics_of_join, topics]
        rfl
      · rw [brokerCall, BrokerInner.inbox_of_join]
        exact messages
  | subscribe subscriber name =>
      refine ⟨?_, ?_⟩
      · intro topic
        rw [brokerCall, BrokerInner.topics_of_subscribe, topics, List.any_cons, Bool.or_eq_true, subscribes_iff,
          subscribe_ok_iff, or_comm]
      · rw [brokerCall, BrokerInner.inbox_of_subscribe]
        exact messages
  | publish msg walk =>
      refine ⟨?_, ?_⟩
      · intro topic
        rw [brokerCall, BrokerInner.topics_of_publish, topics]
        rfl
      · rw [brokerCall, BrokerInner.inbox_of_publish, owed_publish, ← messages]
        simp only [topics, received]
        split
        · exact (List.append_assoc ..).symm
        · rfl
  | recv receiver =>
      refine ⟨topics, ?_⟩
      rw [brokerCall, BrokerInner.inbox_of_recv, received, BrokerInner.recv]
      by_cases own : receiver = peer
      · rw [if_pos own, if_pos own.symm, List.append_nil, own]
        exact messages
      · rw [if_neg own, if_neg fun same => own same.symm]
        exact messages

theorem run_keeps_up (peer : PeerId) (calls : List BrokerCall) : KeepsUp peer (run calls).1 (run calls).2 := by
  induction calls with
  | nil =>
      refine ⟨?_, ?_⟩
      · intro topic
        simp [run, BrokerInner.topicsOf, BrokerInner.new]
      · simp [run, BrokerInner.inboxOf, BrokerInner.new, received, owed]
  | cons call earlier ih => exact call_keeps_up peer (run earlier).1 (run earlier).2 call ih

theorem broker_delivers (calls : List BrokerCall) (peer : PeerId) :
    received peer (run calls).2 ++ (run calls).1.inboxOf peer = owed peer (run calls).2 ∧
      ∀ call, failed (brokerCall (run calls).1 call).2 = true → (brokerCall (run calls).1 call).1 = (run calls).1 :=
  ⟨(run_keeps_up peer calls).messages, fun call fails => failed_changes_nothing (run calls).1 call fails⟩

example :
    let a : PeerId := ⟨.replicate 32 1⟩
    let b : PeerId := ⟨.replicate 32 2⟩
    let msg : P2pMessage := ⟨wireVersion, a, Topics.tx, 0, .attestation (.replicate 32 3) []⟩
    let ran := run [.publish msg .inOrder, .join b, .subscribe a Topics.tx, .subscribe b Topics.tx, .subscribe b Topics.tx]
    ran.1.inboxOf b = [msg] ∧ ran.1.inboxOf a = [] := by
  decide +kernel

end PyGrove.P2p
