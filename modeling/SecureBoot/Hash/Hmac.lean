import SecureBoot.Hash.Sha256
import SecureBoot.Hash.Sha512

/-!
# HMAC

The keyed hash of RFC 2104, `Hmac.digest`, over the hash functions of the SHA-2 family.
-/

namespace SecureBoot

/-- The hash functions of the SHA-2 family. -/
inductive Sha2 where
  | sha224
  | sha256
  | sha384
  | sha512
  deriving DecidableEq, Repr

namespace Sha2

/-- The length of a block of the hash function. -/
def blockLength : Sha2 → Nat
  | sha224 | sha256 => 64
  | sha384 | sha512 => 128

def digestLength : Sha2 → Nat
  | sha224 => 28
  | sha256 => 32
  | sha384 => 48
  | sha512 => 64

def digest (hash : Sha2) (bs : Bytes) : Octets hash.digestLength :=
  match hash with
  | sha224 => Sha256.digest224 bs
  | sha256 => Sha256.digest bs
  | sha384 => Sha512.digest384 bs
  | sha512 => Sha512.digest bs

end Sha2

namespace Hmac

/-- A key as one block: a longer key is hashed first, a shorter one filled up with zeros. -/
def keyBlock (hash : Sha2) (key : Bytes) : Bytes :=
  let short := if key.length ≤ hash.blockLength then key else (hash.digest key).toBytes
  short ++ List.replicate (hash.blockLength - short.length) 0

def digest (hash : Sha2) (key message : Bytes) : Octets hash.digestLength :=
  let block := keyBlock hash key
  let inner := hash.digest (block.map (· ^^^ 0x36) ++ message)
  hash.digest (block.map (· ^^^ 0x5c) ++ inner.toBytes)

end Hmac

end SecureBoot
