import SecureBoot.Fault
import SecureBoot.KeyFile.Pkcs1

/-!
# Public keys of any algorithm

A `PublicKeyInfo` names an algorithm and holds a key of it as a bit string.
`PublicKeyInfo.rsaKey` is the RSA key in it, and tells a key of another algorithm apart from one
that cannot be read.
-/

namespace SecureBoot

structure PublicKeyInfo where
  algorithm : Der.Algorithm
  key : Der.BitString
  deriving DecidableEq, Repr

namespace PublicKeyInfo

def ofElement? (e : Der.Element) : Option PublicKeyInfo := do
  match ← e.members? Der.Tag.sequence with
  | [algorithm, key] => return ⟨← Der.Algorithm.ofElement? algorithm, ← key.bitString?⟩
  | _ => none

def ofBytes? (data : Bytes) : Option PublicKeyInfo :=
  (Der.element? data).bind ofElement?

/-- The element that an info is written as. -/
def toElement (info : PublicKeyInfo) : Der.Element :=
  Der.construct Der.Tag.sequence
    [info.algorithm.toElement, Der.Element.ofBitString info.key]

def ofRsa (key : Rsa.PublicKey) : PublicKeyInfo where
  algorithm := Der.Algorithm.rsa
  key := ⟨0, key.toPkcs1⟩

def rsaKey (info : PublicKeyInfo) : Except KeyFault Rsa.PublicKey :=
  if info.algorithm.name ≠ Der.Algorithm.rsaName then .error .notRsa
  else if info.algorithm.parameters ≠ some Der.Element.null then .error .decode
  else
    match info.key.whole?.bind Rsa.PublicKey.ofPkcs1? with
    | some key => .ok key
    | none => .error .decode

end PublicKeyInfo

end SecureBoot
