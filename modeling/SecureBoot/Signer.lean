import SecureBoot.SignatureBlock

/-!
# Signers

A `Signer` answers a digest with a signature over it, or fails in a way of its own.  It may act
while it does so: `m` is the monad it acts in.  The operations that sign ask for a signature once
and do not see any private key.

* `Signer.presigned` always gives the same signature, made elsewhere.
* `SigningKey.signer` signs with an RSA-3072 private key and takes a new salt for each signature.
-/

namespace SecureBoot

abbrev Signer (m : Type → Type) (σ : Type) := Digest → m (Except σ Signature)

/-- The signature that a string of the right length is. -/
def Signature.ofBytes (raw : Bytes) : Checked Signature :=
  match Octets.ofBytes? Layout.keyLength raw with
  | some signature => .ok signature
  | none => .error (Fault.of (.signatureLength raw.length))

def Signer.presigned {m : Type → Type} [Monad m] {σ : Type} (signature : Signature) : Signer m σ :=
  fun _ => pure (.ok signature)

/-- A private key with a modulus of 3072 bits. -/
structure SigningKey where
  key : Rsa.PrivateKey
  size_eq : bitLength key.modulus = Layout.keyBits

namespace SigningKey

/-- The signing key that a private key of the right size is. -/
def ofPrivateKey (key : Rsa.PrivateKey) : Checked SigningKey :=
  if h : bitLength key.modulus = Layout.keyBits then .ok ⟨key, h⟩
  else .error (Fault.ofKey (.size (bitLength key.modulus)))

/-- The signature over a digest with a given salt. -/
def sign (key : SigningKey) (salt : Salt) (digest : Digest) : Except Pss.SigningFault Signature :=
  (Pss.sign key.key digest salt).map (Octets.ofNatBig Layout.keyLength)

/-- A signer that draws its salts from a source. -/
def signer {m : Type → Type} [Monad m] (key : SigningKey) (nextSalt : m Salt) :
    Signer m Pss.SigningFault :=
  fun digest => do return key.sign (← nextSalt) digest

end SigningKey

end SecureBoot
