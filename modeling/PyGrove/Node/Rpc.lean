import PyGrove.Lib.Json
import PyGrove.Node.Template

set_option autoImplicit false

namespace PyGrove.Node

open Words PyGrove.Core Crypto PyGrove.Consensus PyGrove.State

def maxRpcBodyBytes : Nat := 64 * 1024

structure HttpRequest where
  bodyLength : Option Nat
  body : List U8

inductive BodyError where
  | declaredTooLarge (len max : Nat)
  | tooLarge (max : Nat)
deriving DecidableEq

def readBoundedBody (req : HttpRequest) (max : Nat) : Except BodyError (List U8) :=
  match req.bodyLength.filter (max < ·) with
  | some len => .error (.declaredTooLarge len max)
  | none =>
      let buf := req.body.take (max + 1)
      if max < buf.length then .error (.tooLarge max) else .ok buf

def post (body : List U8) : HttpRequest := ⟨some body.length, body⟩

theorem read_posted (body : List U8) (max : Nat) :
    (∃ buf, readBoundedBody (post body) max = .ok buf) ↔ body.length ≤ max := by
  rw [readBoundedBody, post, Option.filter_some]
  by_cases large : max < body.length
  · simp [large, Nat.not_le.mpr large]
  · simp [large, Nat.not_lt.mp large]

theorem read_posted_ok (body : List U8) (max : Nat) (fits : body.length ≤ max) : readBoundedBody (post body) max = .ok body := by
  rw [readBoundedBody, post, Option.filter_some, if_neg (by simpa using fits)]
  dsimp only
  rw [List.take_of_length_le (by omega), if_neg (Nat.not_lt.mpr fits)]

-- The json! macro keeps the keys of an object in a BTreeMap.
def headerJson (hdr : BlockHeader) : List U8 :=
  Json.object
    [(ascii "bits", Json.number hdr.bits.toNat),
      (ascii "coinbase", Json.string (Json.hex hdr.coinbase.toList)),
      (ascii "hash_algo", Json.number hdr.hashAlgo.toNat),
      (ascii "height", Json.number hdr.height.toNat),
      (ascii "nonce", Json.number hdr.nonce.toNat),
      (ascii "parent", Json.string (Json.hex hdr.parent.toList)),
      (ascii "reflect_root", Json.string (Json.hex hdr.reflectRoot.toList)),
      (ascii "sig_algo", Json.number hdr.sigAlgo.toNat),
      (ascii "state_root", Json.string (Json.hex hdr.stateRoot.toList)),
      (ascii "timestamp_ms", Json.number hdr.timestampMs.toNat),
      (ascii "tx_root", Json.string (Json.hex hdr.txRoot.toList)),
      (ascii "version", Json.number hdr.version.toNat),
      (ascii "witness_root", Json.string (Json.hex hdr.witnessRoot.toList))]

def rpcSubmitBlock (header : BlockHeader) (txsCbor witnessesCbor : List (List U8)) : List U8 :=
  Json.object
    [(ascii "method", Json.string (ascii "submit_block")),
      (ascii "params", Json.object
        [(ascii "header", headerJson header),
          (ascii "txs_cbor_hex", Json.array (txsCbor.map fun bytes => Json.string (Json.hex bytes))),
          (ascii "witnesses_cbor_hex", Json.array (witnessesCbor.map fun bytes => Json.string (Json.hex bytes)))])]

def minedRequest (resp : TemplateResp) (coinbase : Bytes 32) (nonce : U64) : HttpRequest :=
  post (rpcSubmitBlock { resp.header with coinbase, nonce } resp.txsCbor resp.witnessesCbor)

def rpcSubmitTx (txCbor witnessCbor : List U8) : List U8 :=
  Json.object
    [(ascii "method", Json.string (ascii "submit_tx")),
      (ascii "params", Json.object
        [(ascii "tx_cbor_hex", Json.string (Json.hex txCbor)),
          (ascii "witness_cbor_hex", Json.string (Json.hex witnessCbor))])]

def decimalDigits (numbers : List Nat) : Nat := (numbers.map fun n => (Nat.toDigits 10 n).length).sum

theorem length_header_json (hdr : BlockHeader) : (headerJson hdr).length =
    555 + decimalDigits [hdr.bits.toNat, hdr.hashAlgo.toNat, hdr.height.toNat, hdr.nonce.toNat, hdr.sigAlgo.toNat,
      hdr.timestampMs.toNat, hdr.version.toNat] := by
  have keys : ([ascii "bits", ascii "coinbase", ascii "hash_algo", ascii "height", ascii "nonce", ascii "parent",
      ascii "reflect_root", ascii "sig_algo", ascii "state_root", ascii "timestamp_ms", ascii "tx_root", ascii "version",
      ascii "witness_root"].map fun key => (Json.string key).length).sum = 132 := by decide
  rw [headerJson, Json.length_object]
  simp only [List.map_cons, List.map_nil] at keys ⊢
  rw [keys]
  simp only [List.sum_cons, List.sum_nil, Json.length_number, Json.length_hex_string, List.Vector.toList_length, decimalDigits,
    List.map_cons, List.map_nil, List.length_cons, List.length_nil]
  omega

theorem length_submit_block (header : BlockHeader) (txsCbor witnessesCbor : List (List U8)) :
    (rpcSubmitBlock header txsCbor witnessesCbor).length =
      88 + (headerJson header).length + 2 * ((txsCbor.map List.length).sum + (witnessesCbor.map List.length).sum) +
        (2 * txsCbor.length + (txsCbor.length - 1)) + (2 * witnessesCbor.length + (witnessesCbor.length - 1)) := by
  have keys : ([ascii "method", ascii "params"].map fun key => (Json.string key).length).sum = 16 := by decide
  have fields : ([ascii "header", ascii "txs_cbor_hex", ascii "witnesses_cbor_hex"].map fun key =>
      (Json.string key).length).sum = 42 := by decide
  have name : (Json.string (ascii "submit_block")).length = 14 := by decide
  rw [rpcSubmitBlock, Json.length_object]
  simp only [List.map_cons, List.map_nil] at keys fields ⊢
  rw [keys, Json.length_object]
  simp only [List.map_cons, List.map_nil]
  rw [fields]
  simp only [List.sum_cons, List.sum_nil, name, Json.length_hex_array, List.length_cons, List.length_nil]
  omega

theorem length_submit_tx (txCbor witnessCbor : List U8) :
    (rpcSubmitTx txCbor witnessCbor).length = 72 + 2 * (txCbor.length + witnessCbor.length) := by
  have keys : ([ascii "method", ascii "params"].map fun key => (Json.string key).length).sum = 16 := by decide
  have fields : ([ascii "tx_cbor_hex", ascii "witness_cbor_hex"].map fun key => (Json.string key).length).sum = 31 := by decide
  have name : (Json.string (ascii "submit_tx")).length = 11 := by decide
  rw [rpcSubmitTx, Json.length_object]
  simp only [List.map_cons, List.map_nil] at keys fields ⊢
  rw [keys, Json.length_object]
  simp only [List.map_cons, List.map_nil]
  rw [fields]
  simp only [List.sum_cons, List.sum_nil, name, Json.length_hex_string, List.length_cons, List.length_nil]
  omega

structure SubmitTransferReq where
  fromAccount : AccountId
  toAccount : AccountId
  amountSat : U128
  feeSat : U64
  nonce : U64
  pubkey : List U8
  sig : List U8

inductive RpcCall where
  | submitTx (txCbor witnessCbor : List U8)
  | submitTransfer (req : SubmitTransferReq)
  | other

inductive SubmitTxError where
  | txCbor (reason : String)
  | witnessCbor (reason : String)
  | notDerived
  | signature (e : CryptoError)
  | mempool (e : MempoolError)
deriving DecidableEq

inductive PoolEvent where
  | request (req : HttpRequest) (nowMs : U64) (state : MemState)
  | confirmed (blockHashes : List (Bytes 32))

section
variable [HashFns]

def Mempool.offer (pool : Mempool) (body : TxBody) (witness : Witness) (nowMs : U64) : Mempool × Except SubmitTxError (Bytes 32) :=
  let (next, result) := pool.submit body witness nowMs
  (next, result.mapError .mempool)

def submitTx (pool : Mempool) (txCbor witnessCbor : List U8) (nowMs : U64) : Mempool × Except SubmitTxError (Bytes 32) :=
  match txBodyWire.codec.decode txCbor with
  | .error reason => (pool, .error (.txCbor reason))
  | .ok body =>
      match witnessWire.codec.decode witnessCbor with
      | .error reason => (pool, .error (.witnessCbor reason))
      | .ok witness => pool.offer body witness nowMs

theorem offer_pool (pool : Mempool) (body : TxBody) (witness : Witness) (nowMs : U64) :
    (pool.offer body witness nowMs).1 = (pool.submit body witness nowMs).1 := rfl

theorem submit_tx_encoded (pool : Mempool) (body : TxBody) (witness : Witness) (nowMs : U64) :
    submitTx pool (txBodyWire.codec.encode body) (witnessWire.codec.encode witness) nowMs = pool.offer body witness nowMs := by
  rw [submitTx, Codec.decode_encode]
  dsimp only
  rw [Codec.decode_encode]

variable [SigFns] [StateCbor]

def submitTransfer (state : MemState) (pool : Mempool) (req : SubmitTransferReq) (nowMs : U64) :
    Mempool × Except SubmitTxError (Bytes 32) :=
  if AccountId.fromPubkey req.pubkey ≠ req.fromAccount then (pool, .error .notDerived)
  else
    let tx : TxBody :=
      { nonce := req.nonce
        fromAccount := req.fromAccount
        call := .transfer req.toAccount req.amountSat
        feeSat := req.feeSat
        gasLimit := 21000
        witnessHash := .replicate 32 0 }
    match SigFns.verify 3 req.pubkey req.sig tx.signingHash.toList with
    | .error e => (pool, .error (.signature e))
    | .ok () =>
        let acct := Accounts.loadOrDefault state req.fromAccount
        let pubkey : PubKeyRef := if acct.pubkey.isEmpty then .inline req.pubkey else .known req.fromAccount
        let witness : Witness := { sigAlgo := 3, sig := req.sig, pubkey }
        pool.offer { tx with witnessHash := witness.hash } witness nowMs

def poolStep (fromSlice : List U8 → Option RpcCall) (pool : Mempool) : PoolEvent → Mempool
  | .request req nowMs state =>
      match readBoundedBody req maxRpcBodyBytes with
      | .error _ => pool
      | .ok body =>
          match fromSlice body with
          | some (.submitTx txCbor witnessCbor) => (submitTx pool txCbor witnessCbor nowMs).1
          | some (.submitTransfer transfer) => (submitTransfer state pool transfer nowMs).1
          | some .other => pool
          | none => pool
  | .confirmed blockHashes => pool.confirm blockHashes

def poolAfter (fromSlice : List U8 → Option RpcCall) (events : List PoolEvent) : Mempool :=
  events.foldl (poolStep fromSlice) (.new 10000)

end

section
variable [HashFns]

def pulledBytes (pool : Mempool) : Nat :=
  ((pool.pullForBlock 256).map fun pending =>
    (txBodyWire.encode pending.body).length + (witnessWire.encode pending.witness).length).sum

def Submittable (config : MinerConfig) (node : NodeState) (nowMs : U64) (coinbase : Bytes 32) (nonce : U64) : Prop :=
  ∃ body, readBoundedBody (minedRequest (template config node nowMs) coinbase nonce) maxRpcBodyBytes = .ok body

def PullFits (config : MinerConfig) (node : NodeState) (nowMs nonce : U64) : Prop :=
  let nextHeight : U64 := ((node.store.tip.map fun b => b.header.height).getD 0) + 1
  643 + decimalDigits [config.bits.toNat, config.hashAlgo.toNat, nextHeight.toNat, nonce.toNat, config.sigAlgo.toNat,
      nowMs.toNat, 1] +
    2 * pulledBytes node.mempool + 2 * (3 * (node.mempool.pullForBlock 256).length - 1) ≤ maxRpcBodyBytes

omit [HashFns] in
theorem pulled_texts (pulled : List PendingTx) :
    (((pulled.map PendingTx.body).map txBodyWire.codec.encode).map List.length).sum +
        (((pulled.map PendingTx.witness).map witnessWire.codec.encode).map List.length).sum =
      (pulled.map fun pending => (txBodyWire.encode pending.body).length + (witnessWire.encode pending.witness).length).sum := by
  induction pulled with
  | nil => rfl
  | cons pending tail ih =>
      simp only [List.map_cons, List.sum_cons]
      rw [← ih]
      show (txBodyWire.encode pending.body).length + _ + ((witnessWire.encode pending.witness).length + _) = _
      omega

theorem submittable_iff (config : MinerConfig) (node : NodeState) (nowMs : U64) (coinbase : Bytes 32) (nonce : U64) :
    Submittable config node nowMs coinbase nonce ↔ PullFits config node nowMs nonce := by
  have txs : (template config node nowMs).txsCbor =
      ((node.mempool.pullForBlock 256).map PendingTx.body).map txBodyWire.codec.encode := rfl
  have witnesses : (template config node nowMs).witnessesCbor =
      ((node.mempool.pullForBlock 256).map PendingTx.witness).map witnessWire.codec.encode := rfl
  have height : (template config node nowMs).header.height =
      ((node.store.tip.map fun b => b.header.height).getD 0) + 1 := by
    rw [template]
    cases node.store.tip with
    | none => rfl
    | some b => rfl
  have header := length_header_json { (template config node nowMs).header with coinbase, nonce }
  rw [height] at header
  have bytes := pulled_texts (node.mempool.pullForBlock 256)
  rw [← pulledBytes] at bytes
  rw [Submittable, minedRequest, read_posted, length_submit_block, header, txs, witnesses, bytes, PullFits]
  simp only [List.length_map]
  show 88 + (555 + decimalDigits [config.bits.toNat, config.hashAlgo.toNat, _, nonce.toNat, config.sigAlgo.toNat,
    nowMs.toNat, 1]) + _ + _ + _ ≤ _ ↔ _
  omega

theorem pulled_bytes_at_least (pool : Mempool) : 153 * (pool.pullForBlock 256).length ≤ pulledBytes pool := by
  rw [pulledBytes]
  induction pool.pullForBlock 256 with
  | nil => exact Nat.le_refl 0
  | cons pending tail ih =>
      have tx := tx_body_at_least pending.body
      have witness := witness_at_least pending.witness
      rw [List.map_cons, List.sum_cons, List.length_cons]
      omega

theorem full_template_refused (config : MinerConfig) (node : NodeState) (nowMs : U64) (coinbase : Bytes 32) (nonce : U64)
    (full : 208 ≤ (node.mempool.pullForBlock 256).length) : ¬ Submittable config node nowMs coinbase nonce := by
  have bytes := pulled_bytes_at_least node.mempool
  rw [submittable_iff, PullFits, maxRpcBodyBytes]
  omega

variable [SigFns] [StateCbor]

theorem reached_template_submittable_iff (fromSlice : List U8 → Option RpcCall) (events : List PoolEvent)
    (config : MinerConfig) (node : NodeState) (nowMs : U64) (coinbase : Bytes 32) (nonce : U64) :
    let reached := { node with mempool := poolAfter fromSlice events }
    Submittable config reached nowMs coinbase nonce ↔ PullFits config reached nowMs nonce :=
  submittable_iff config { node with mempool := poolAfter fromSlice events } nowMs coinbase nonce

end

end PyGrove.Node

/- One transaction with a signature of 32400 bytes. Nobody has checked it: the
   mempool takes whatever carries the hash of its witness. -/
namespace PyGrove.Sample.Junk

open Words Cbor PyGrove.Core PyGrove.State PyGrove.Node

def nobody : AccountId := ⟨.replicate 20 0⟩

def witness (sig : List U8) : Witness := { sigAlgo := 3, sig, pubkey := .known nobody }

def tx (sig : List U8) : TxBody where
  nonce := 0
  fromAccount := nobody
  call := .transfer nobody 0
  feeSat := 0
  gasLimit := 21000
  witnessHash := (witness sig).hash

def request (sig : List U8) : List U8 :=
  rpcSubmitTx (txBodyWire.codec.encode (tx sig)) (witnessWire.codec.encode (witness sig))

def fromSlice (sig body : List U8) : Option RpcCall :=
  if body = request sig then some (.submitTx (txBodyWire.codec.encode (tx sig)) (witnessWire.codec.encode (witness sig)))
  else none

def pool (sig : List U8) : Mempool := poolAfter (fromSlice sig) [.request (post (request sig)) 0 .new]

theorem length_junk_witness (sig : List U8) (long : sig.length = 32400) :
    (witnessWire.codec.encode (witness sig)).length = 32453 := by
  have opened : (encodeHead 2 32400).length = 3 := by decide
  have algo : ((word 8).encode 3).length = 1 := by decide
  have key : (pubKeyRefWire.encode (.known nobody)).length = 28 := by decide
  show (witnessWire.encode (witness sig)).length = 32453
  rw [length_witness, byte_string_length, witness, long, opened, algo, key]

theorem length_junk_tx (sig : List U8) :
    158 ≤ (txBodyWire.codec.encode (tx sig)).length ∧ (txBodyWire.codec.encode (tx sig)).length ≤ 191 := by
  have nonce : ((word 64).encode 0).length = 1 := by decide
  have sender : (accountIdWire.encode nobody).length = 21 := by decide
  have call : (txCallWire.encode (.transfer nobody 0)).length = 43 := by decide
  have gas : ((word 32).encode 21000).length = 3 := by decide
  have least := fixed_array_at_least 32 (witness sig).hash
  have most := fixed_array_at_most 32 (witness sig).hash
  have opened : (encodeHead 4 32).length = 2 := by decide
  show 158 ≤ (txBodyWire.encode (tx sig)).length ∧ (txBodyWire.encode (tx sig)).length ≤ 191
  rw [length_tx_body]
  dsimp only [tx]
  rw [nonce, sender, call, gas]
  constructor <;> omega

theorem request_fits (sig : List U8) (long : sig.length = 32400) : (request sig).length ≤ maxRpcBodyBytes := by
  have txLength := length_junk_tx sig
  rw [request, length_submit_tx, length_junk_witness sig long, maxRpcBodyBytes]
  omega

theorem pool_pulls (sig : List U8) (long : sig.length = 32400) :
    (pool sig).pullForBlock 256 = [{ body := tx sig, witness := witness sig, receivedMs := 0 }] := by
  have stepped : pool sig = ((Mempool.new 10000).submit (tx sig) (witness sig) 0).1 := by
    rw [pool, poolAfter, List.foldl_cons, List.foldl_nil, poolStep, read_posted_ok _ maxRpcBodyBytes (request_fits sig long)]
    dsimp only
    rw [fromSlice, if_pos rfl]
    dsimp only
    rw [submit_tx_encoded, offer_pool]
  rw [stepped]
  exact Mempool.pull_first 10000 256 (tx sig) (witness sig) 0 rfl (by decide)

theorem pool_bytes (sig : List U8) (long : sig.length = 32400) : 32611 ≤ pulledBytes (pool sig) := by
  have txLength := (length_junk_tx sig).1
  have witnessLength := length_junk_witness sig long
  rw [pulledBytes, pool_pulls sig long, List.map_singleton, List.sum_singleton]
  show 32611 ≤ (txBodyWire.codec.encode (tx sig)).length + (witnessWire.codec.encode (witness sig)).length
  omega

theorem junk_refused (sig : List U8) (long : sig.length = 32400) (nowMs nonce : U64) (coinbase : Bytes 32) :
    ¬ Submittable shippedMiner { freshNode with mempool := pool sig } nowMs coinbase nonce := by
  have bytes := pool_bytes sig long
  rw [submittable_iff, PullFits, maxRpcBodyBytes]
  dsimp only
  omega

end PyGrove.Sample.Junk

namespace PyGrove.Node

open Words PyGrove.Core PyGrove.State Sample

theorem junk_signature_stays_out :
    let sig : List U8 := List.replicate 32400 0
    let traffic := [PoolEvent.request (post (Junk.request sig)) 0 .new]
    (Junk.request sig).length ≤ maxRpcBodyBytes ∧
      (poolAfter (Junk.fromSlice sig) traffic).pullForBlock 256 =
        [{ body := Junk.tx sig, witness := Junk.witness sig, receivedMs := 0 }] ∧
      ¬ Submittable shippedMiner { freshNode with mempool := poolAfter (Junk.fromSlice sig) traffic } 1778717420000
        (.replicate 32 9) 0 := by
  intro sig traffic
  have long : sig.length = 32400 := List.length_replicate
  exact ⟨Junk.request_fits sig long, Junk.pool_pulls sig long, Junk.junk_refused sig long 1778717420000 0 (.replicate 32 9)⟩

end PyGrove.Node
