import PyGrove.Lib.Words

set_option autoImplicit false

namespace PyGrove.Core

open Words

-- The hash crates (blake3, sha3) as functions of the bytes fed to the hasher.
-- Nothing is assumed about them; where a result needs a hash not to collide,
-- it names the inputs on which it must not.
class HashFns where
  blake3 : List U8 → Bytes 32
  blake3Xof : List U8 → Bytes 64
  shake256 : List U8 → Bytes 64
  sha3_512 : List U8 → Bytes 64

inductive HashAlgo where
  | blake3Xof512
  | shake256
  | sha3_512
deriving DecidableEq

def ascii (text : String) : List U8 := text.toList.map fun c => BitVec.ofNat 8 c.toNat

def utf8 (text : String) : List U8 := text.toUTF8.data.toList.map UInt8.toBitVec

def domainTag (domain : String) : List U8 := ascii "PG" ++ utf8 domain ++ [0]

section
variable [HashFns]

def hashWithDomain (algo : HashAlgo) (domain : String) (bytes : List U8) : Bytes 64 :=
  match algo with
  | .blake3Xof512 => HashFns.blake3Xof (domainTag domain ++ bytes)
  | .shake256 => HashFns.shake256 (domainTag domain ++ bytes)
  | .sha3_512 => HashFns.sha3_512 (domainTag domain ++ bytes)

end

def truncateTo32 (d : Bytes 64) : Bytes 32 :=
  ⟨d.toList.take 32, by simp⟩

end PyGrove.Core
