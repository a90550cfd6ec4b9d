import PyGrove.Lib.Words

set_option autoImplicit false

namespace PyGrove.Crypto

open Words

inductive CryptoError where
  | unknownAlgo (algo : U8)
  | badSignature
  | malformed
  | notWired
  | notAllowedInFipsBuild (algo : U8)
deriving DecidableEq

-- crypto::verify dispatches to the signature crates; here it is any function
-- of the algorithm tag, the key, the signature and the message. The fips
-- flag is the cargo feature that selects the allowlists.
class SigFns where
  fips : Bool
  verify : U8 → List U8 → List U8 → List U8 → Except CryptoError Unit

def sizes (algo : U8) : Option (Nat × Nat) :=
  if algo = 1 then some (897, 666)
  else if algo = 2 then some (32, 7856)
  else if algo = 3 then some (32, 64)
  else if algo = 4 then some (1952, 3309)
  else if algo = 5 then some (48, 96)
  else none

def fipsAllowlistSig : List U8 := [2, 4]
def fipsAllowlistHash : List U8 := [3]
def defaultAllowlistSig : List U8 := [1, 2, 3, 4, 5]
def defaultAllowlistHash : List U8 := [1, 2, 3]

section
variable [SigFns]

def activeAllowlistSig : List U8 := if SigFns.fips then fipsAllowlistSig else defaultAllowlistSig
def activeAllowlistHash : List U8 := if SigFns.fips then fipsAllowlistHash else defaultAllowlistHash

def allowedSig (algo : U8) : Bool := activeAllowlistSig.contains algo
def allowedHash (algo : U8) : Bool := activeAllowlistHash.contains algo

end

end PyGrove.Crypto
