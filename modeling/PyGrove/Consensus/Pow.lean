import PyGrove.Core.Tx

set_option autoImplicit false

namespace PyGrove.Consensus

open Words PyGrove.Core

-- The three low mantissa bytes, at 32 - exponent and after. Setting a byte
-- past the end changes nothing, as the bound in the loop does.
def targetBytes (bits : U32) : List U8 :=
  let exponent := (bits >>> 24).toNat
  let mantissa := bits &&& 0x007FFFFF
  if exponent = 0 ∨ 32 < exponent then List.replicate 32 0
  else
    ((beBytes 4 mantissa.toNat).drop 1).zipIdx.foldl
      (fun target byte => target.set (32 - exponent + byte.2) byte.1) (List.replicate 32 0)

theorem length_set_bytes (start : Nat) (bytes : List (U8 × Nat)) (target : List U8) :
    (bytes.foldl (fun target byte => target.set (start + byte.2) byte.1) target).length = target.length := by
  induction bytes generalizing target with
  | nil => rfl
  | cons byte tail ih => rw [List.foldl_cons, ih, List.length_set]

theorem length_target_bytes (bits : U32) : (targetBytes bits).length = 32 := by
  unfold targetBytes
  dsimp only
  split
  · exact List.length_replicate
  · rw [length_set_bytes, List.length_replicate]

def targetFromBits (bits : U32) : Bytes 32 := ⟨targetBytes bits, length_target_bytes bits⟩

-- Bytes past the end of the target read as zero. A mantissa whose top bit is
-- set moves down by one byte.
def bitsFromTarget (target : Bytes 32) : U32 :=
  let leadingZeros := (target.toList.takeWhile (· = 0)).length
  if 32 ≤ leadingZeros then 0
  else
    let kept : U32 := (List.range 3).foldl
      (fun mantissa i => mantissa <<< 8 ||| (target.toList.getD (leadingZeros + i) 0).setWidth 32) 0
    let negative : Bool := kept &&& 0x00800000 ≠ 0
    let mantissa := if negative then kept >>> 8 else kept
    let exponent := if negative then 32 - leadingZeros + 1 else 32 - leadingZeros
    if 0xFF < exponent then 0 else BitVec.ofNat 32 exponent <<< 24 ||| (mantissa &&& 0x007FFFFF)

def headerPreimage (header : BlockHeader) : List U8 :=
  leBytes 4 header.version.toNat ++ leBytes 8 header.height.toNat ++ header.parent.toList ++
    leBytes 8 header.timestampMs.toNat ++ leBytes 4 header.bits.toNat ++ leBytes 8 header.nonce.toNat ++
    header.txRoot.toList ++ header.witnessRoot.toList ++ header.stateRoot.toList ++ header.reflectRoot.toList ++
    header.coinbase.toList ++ [header.sigAlgo, header.hashAlgo]

def hashHeader [HashFns] (header : BlockHeader) : Bytes 32 :=
  truncateTo32 (hashWithDomain .blake3Xof512 "hdr" (headerPreimage header))

def meetsTarget : List U8 → List U8 → Bool
  | h :: hash, t :: target => if h < t then true else if t < h then false else meetsTarget hash target
  | _, _ => true

theorem meets_target_iff (hash target : List U8) (same : hash.length = target.length) :
    meetsTarget hash target ↔ ofBeBytes hash ≤ ofBeBytes target := by
  induction hash generalizing target with
  | nil =>
      cases target with
      | nil => simp [meetsTarget]
      | cons t target => cases same
  | cons h hash ih =>
      cases target with
      | nil => cases same
      | cons t target =>
          have lengths : hash.length = target.length := Nat.succ.inj same
          have hashBound := of_be_bytes_lt hash
          have targetBound := of_be_bytes_lt target
          rw [meetsTarget, ofBeBytes, ofBeBytes, ← lengths]
          rw [← lengths] at targetBound
          by_cases below : h < t
          · have step : (h.toNat + 1) * 256 ^ hash.length ≤ t.toNat * 256 ^ hash.length :=
              Nat.mul_le_mul_right _ (Nat.succ_le_of_lt (BitVec.lt_def.mp below))
            rw [Nat.succ_mul] at step
            simp only [if_pos below, true_iff]
            omega
          · rw [if_neg below]
            by_cases above : t < h
            · have step : (t.toNat + 1) * 256 ^ hash.length ≤ h.toNat * 256 ^ hash.length :=
                Nat.mul_le_mul_right _ (Nat.succ_le_of_lt (BitVec.lt_def.mp above))
              rw [Nat.succ_mul] at step
              simp only [if_pos above, Bool.false_eq_true, false_iff]
              omega
            · have equal : h = t := by
                apply BitVec.eq_of_toNat_eq
                simp only [BitVec.lt_def] at below above
                omega
              rw [if_neg above, ih target lengths, equal]
              omega

end PyGrove.Consensus
