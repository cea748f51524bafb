import SecureBoot.KeyFile.Pkcs1

/-!
# Private keys in the PKCS#8 format

A private key of a named algorithm, in an octet string.  `PrivateKeyInfo.rsaKey?` is the RSA key
in it, and `PrivateKeyInfo.ofRsa?` writes one.
-/

namespace SecureBoot.PrivateKeyInfo

open Der

/-- Whether a member is an attribute or an extension: any element inside a context-specific one. -/
def isExtension (e : Element) : Bool :=
  e.unwrap?.isSome

/-- Whether these are the optional members behind a key: a public key just if the version says so,
and extensions. -/
def isTail (version : Nat) (members : List Element) : Bool :=
  let (publicKey, members) := takeContext 1 members
  (match publicKey with
    | some key => version == 1 && key.implicitBitString?.isSome
    | none => version == 0) &&
  members.all isExtension

/-- The RSA key in an octet string of this format. -/
def rsaKey? (data : Bytes) : Option Rsa.PrivateKey := do
  match ← (← element? data).members? Tag.sequence with
  | version :: algorithm :: key :: tail =>
    let version ← version.uint?
    let algorithm ← Algorithm.ofElement? algorithm
    if algorithm = Algorithm.rsa ∧ isTail version tail = true then
      Rsa.PrivateKey.ofPkcs1? (← key.content? Tag.octetString)
    else none
  | _ => none

/-- An RSA key in this format. -/
def ofRsa? (key : Rsa.PrivateKey) : Option Bytes := do
  let members :=
    [Element.ofUint 0, Algorithm.rsa.toElement, ⟨Tag.octetString, ← key.toPkcs1?⟩]
  return (construct Tag.sequence members).encode

end SecureBoot.PrivateKeyInfo
