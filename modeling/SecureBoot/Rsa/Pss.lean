import SecureBoot.Hash.Sha256
import SecureBoot.Layout
import SecureBoot.Rsa.Basic

/-!
# RSA-PSS signatures

The signature scheme of RFC 8017, section 8.1, with SHA-256 both as hash function and in the mask
generation function, and with a salt of 32 octets.  What is signed is a digest: it takes the place
of the hash of the message.

* `Pss.encode` and `Pss.accepts` are the encoding and its check (EMSA-PSS).
* `Pss.sign` and `Pss.verify` are the signature primitives around them.
-/

namespace SecureBoot

abbrev Salt := Octets Layout.saltLength

namespace Pss

/-! ## Encoding -/

/-- A mask of `len` octets generated from a seed (MGF1). -/
def mask (seed : Bytes) (len : Nat) : Bytes :=
  let blocks := List.range ((len + 31) / 32)
  (blocks.flatMap fun i => (Sha256.digest (seed ++ bigEndianBytes 4 i)).toBytes).take len

/-- The hash of a digest together with a salt. -/
def saltedHash (digest : Digest) (salt : Bytes) : Digest :=
  Sha256.digest (List.replicate 8 0 ++ digest.toBytes ++ salt)

/-- A string with the first `bits` bits of its first octet, at most eight, set to zero. -/
def clearTopBits (bits : Nat) : Bytes → Bytes
  | [] => []
  | b :: bs => UInt8.ofNat (b.toNat % 1 <<< (8 - bits)) :: bs

/-- The number of octets that hold so many bits. -/
def octetsFor (bits : Nat) : Nat :=
  (bits + 7) / 8

def trailer : UInt8 := 0xbc

/-- The encoding of a digest with a salt in `bits` bits, at least 521. -/
def encode (digest : Digest) (salt : Salt) (bits : Nat) : Bytes :=
  let len := octetsFor bits
  let hash := (saltedHash digest salt.toBytes).toBytes
  -- Separator, salt, hash and trailer take 66 octets.
  let data := List.replicate (len - 66) 0 ++ 1 :: salt.toBytes
  let masked := xorBytes data (mask hash (len - 33))
  clearTopBits (8 * len - bits) masked ++ hash ++ [trailer]

/-- Whether a string of the right length is an encoding of a digest in `bits` bits. -/
def accepts (digest : Digest) (encoded : Bytes) (bits : Nat) : Bool :=
  let len := octetsFor bits
  let masked := encoded.take (len - 33)
  let hash := (encoded.drop (len - 33)).take 32
  -- The mask also covers the bits that an encoding does not have; they are cleared again.
  let data := clearTopBits (8 * len - bits) (xorBytes masked (mask hash (len - 33)))
  let salt := data.drop (len - 65)
  decide (66 ≤ len) &&
  encoded.drop (len - 1) == [trailer] &&
  clearTopBits (8 * len - bits) masked == masked &&
  data.take (len - 65) == List.replicate (len - 66) 0 ++ [1] &&
  hash == (saltedHash digest salt).toBytes

/-! ## Signatures -/

/-- The number of bits of an encoding under a key: one less than the modulus has. -/
def encodingBits (key : Rsa.PublicKey) : Nat :=
  bitLength key.modulus - 1

/-- Whether a string, most significant octet first, is a signature over a digest under a key. -/
def verify (key : Rsa.PublicKey) (digest : Digest) (signature : Bytes) : Bool :=
  -- The power may be one octet longer than an encoding.
  let power := bigEndianBytes key.size (key.apply (bigEndian signature))
  let encoded := power.drop (key.size - octetsFor (encodingBits key))
  signature.length == key.size && accepts digest encoded (encodingBits key)

/-- Why a key cannot sign. -/
inductive SigningFault where
  /-- The public exponent does not undo the private one. -/
  | inconsistentKey
  deriving DecidableEq, Repr

def SigningFault.message : SigningFault → String
  | inconsistentKey => "internal error"

/-- The number that is the signature over a digest with a salt. -/
def sign (key : Rsa.PrivateKey) (digest : Digest) (salt : Salt) : Except SigningFault Nat :=
  let encoded := bigEndian (encode digest salt (encodingBits key.toPublicKey))
  let signature := key.apply encoded
  -- A wrong power is withheld, since it can reveal the key.
  if key.toPublicKey.apply signature = encoded then .ok signature else .error .inconsistentKey

end Pss

end SecureBoot
