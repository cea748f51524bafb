import SecureBoot.Der.Time
import SecureBoot.KeyFile.PublicKeyInfo

/-!
# Certificates

What is wanted of an X.509 certificate is the public key in it.  The certificate must be well-formed
throughout, though nothing in it is trusted and its own signature is not checked.

* `Certificate.publicKeyInfo?` takes the key from the element of a certificate.
* `Certificate.ofBytes?` takes it from an octet string that is a certificate.
-/

namespace SecureBoot.Certificate

open Der

/-- Whether an element is the version of a certificate, of which there are three. -/
def isVersion (e : Element) : Bool :=
  (e.unwrap?.bind Element.uint?).any fun version => decide (version ≤ 2)

/-- Whether an element is a serial number: a number of at most 21 octets. -/
def isSerialNumber (e : Element) : Bool :=
  (e.content? Tag.integer).any fun content =>
    isInteger content && decide (content.length ≤ 21)

def attribute? (e : Element) : Option (ObjectIdentifier × Element) := do
  match ← e.members? Tag.sequence with
  | [name, value] => return (← name.objectIdentifier?, value)
  | _ => none

/-- Whether an element is a set of attributes, none of them twice. -/
def isRelativeName (e : Element) : Bool :=
  ((e.members? Tag.set).bind (List.mapM attribute?)).any fun attributes =>
    decide attributes.Nodup

/-- Whether an element is a name: a sequence of sets of attributes. -/
def isName (e : Element) : Bool :=
  (e.members? Tag.sequence).any (List.all · isRelativeName)

/-- Whether an element is a pair of times. -/
def isValidity (e : Element) : Bool :=
  (e.members? Tag.sequence).any fun
    | [start, stop] => isTime start && isTime stop
    | _ => false

/-- Whether an element is an extension: a name, perhaps a truth value, and octets. -/
def isExtension (e : Element) : Bool :=
  (e.members? Tag.sequence).any fun
    | [name, value] =>
      name.objectIdentifier?.isSome && value.tag == Tag.octetString
    | [name, critical, value] =>
      name.objectIdentifier?.isSome && critical.boolean?.isSome && value.tag == Tag.octetString
    | _ => false

/-- Whether an element is wrapped around a sequence of extensions. -/
def isExtensions (e : Element) : Bool :=
  (e.unwrap?.bind (Element.members? Tag.sequence)).any (List.all · isExtension)

/-- Whether these are the optional members behind the key: two identifiers and the extensions. -/
def isTail (members : List Element) : Bool :=
  let (issuerId, members) := takeContext 1 members
  let (subjectId, members) := takeContext 2 members
  let (extensions, members) := takeContext 3 members
  issuerId.all (·.implicitBitString?.isSome) &&
  subjectId.all (·.implicitBitString?.isSome) &&
  extensions.all isExtensions &&
  members.isEmpty

/-- The key in the signed part of a certificate. -/
def signedPartKey? (e : Element) : Option PublicKeyInfo := do
  let (version, members) := takeContext 0 (← e.members? Tag.sequence)
  match members with
  | serial :: algorithm :: issuer :: validity :: subject :: key :: tail =>
    if version.all isVersion && isSerialNumber serial &&
        (Algorithm.ofElement? algorithm).isSome && isName issuer && isValidity validity &&
        isName subject && isTail tail then
      PublicKeyInfo.ofElement? key
    else none
  | _ => none

def publicKeyInfo? (e : Element) : Option PublicKeyInfo := do
  match ← e.members? Tag.sequence with
  | [signedPart, algorithm, signature] =>
    let info ← signedPartKey? signedPart
    if (Algorithm.ofElement? algorithm).isSome && signature.bitString?.isSome then return info
    else none
  | _ => none

/-- The key in the certificate that an octet string is. -/
def ofBytes? (data : Bytes) : Option PublicKeyInfo :=
  (element? data).bind publicKeyInfo?

/-- The key in the certificate at the front of an octet string. -/
def ofFront? (data : Bytes) : Option PublicKeyInfo :=
  (takeElement data).bind fun (e, _) => publicKeyInfo? e

end SecureBoot.Certificate
