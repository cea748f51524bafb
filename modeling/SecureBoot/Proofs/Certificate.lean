import SecureBoot.KeyFile.Certificate
import SecureBoot.Proofs.PublicKeyInfo

/-!
# Certificate — an octet string is a certificate if it is made of its parts

`Parts` are the parts of a certificate, each an element, and `Parts.WellFormed` is what has to be
true of them.  `ofBytes?_eq_some_iff` says that the strings which are read as certificates are those
that such parts are written as, and that the key found in one is the one among its parts.

`Carries` says so of a certificate and the key in it, as it is written there;
`Carries.ofBytes?_eq` is why the key may be read alone, and `exists_carries` gives a certificate for
any key.
-/

namespace SecureBoot.Certificate

open Der

/-! ## Optional members -/

variable {e : Element} {es : List Element} {version : Option Element} {info : PublicKeyInfo}

/-- Whether an element stands where the version may stand. -/
def IsVersionMember (e : Element) : Prop :=
  Tag.isContext e.tag = true ∧ Tag.number e.tag = 0

theorem takeContext_zero_of_not_context {serialNumber : Element} (more : List Element)
    (h : Tag.isContext serialNumber.tag = false) :
    takeContext 0 (serialNumber :: more) = (none, serialNumber :: more) := by
  simp [takeContext, h]

theorem takeContext_zero_of_version (es : List Element) (h : IsVersionMember e) :
    takeContext 0 (e :: es) = (some e, es) := by
  simp [takeContext, h.1, h.2]

/-- The version and what follows it are all the members. -/
theorem of_takeContext_zero {rest : List Element} (h : takeContext 0 es = (version, rest)) :
    es = version.toList ++ rest ∧ ∀ e ∈ version, IsVersionMember e := by
  cases es with
  | nil =>
      cases h
      simp
  | cons e es =>
      simp only [takeContext] at h
      split at h
      · cases h
        simp
      · next hcontext =>
        have hmember : IsVersionMember e := by
          simpa [IsVersionMember] using hcontext
        rw [if_pos hmember.2] at h
        cases h
        simp [hmember]

/-! ## The signed part -/

structure SignedPart where
  version : Option Element
  serialNumber : Element
  algorithm : Element
  issuer : Element
  validity : Element
  subject : Element
  key : Element
  /-- Identifiers and extensions. -/
  tail : List Element

namespace SignedPart

def members (part : SignedPart) : List Element :=
  part.version.toList ++ part.serialNumber :: part.algorithm :: part.issuer :: part.validity ::
    part.subject :: part.key :: part.tail

def toElement (part : SignedPart) : Element :=
  construct Tag.sequence part.members

structure WellFormed (part : SignedPart) : Prop where
  version_mem : ∀ e ∈ part.version, IsVersionMember e ∧ isVersion e = true
  serialNumber : isSerialNumber part.serialNumber = true
  algorithm : (Algorithm.ofElement? part.algorithm).isSome = true
  issuer : isName part.issuer = true
  validity : isValidity part.validity = true
  subject : isName part.subject = true
  key : (PublicKeyInfo.ofElement? part.key).isSome = true
  tail : isTail part.tail = true
  readable : ∀ e ∈ part.members, e.Readable

variable {part : SignedPart}

/-- A serial number is not mistaken for the version. -/
theorem WellFormed.takeContext_members (h : part.WellFormed) :
    takeContext 0 part.members = (part.version, part.serialNumber :: part.algorithm ::
      part.issuer :: part.validity :: part.subject :: part.key :: part.tail) := by
  have htag : part.serialNumber.tag = Tag.integer := by
    have hserial := h.serialNumber
    simp only [isSerialNumber, Element.content?] at hserial
    split at hserial
    · next htag => exact htag
    · cases hserial
  rw [members]
  cases hversion : part.version with
  | none => exact takeContext_zero_of_not_context _ (by rw [htag]; decide)
  | some e => exact takeContext_zero_of_version _ (h.version_mem e hversion).1

end SignedPart

theorem signedPartKey?_eq_some_iff :
    signedPartKey? e = some info ↔ ∃ part : SignedPart, part.WellFormed ∧ e = part.toElement ∧
      PublicKeyInfo.ofElement? part.key = some info := by
  constructor
  · intro h
    simp only [signedPartKey?, bind, Option.bind_eq_some_iff] at h
    rcases h with ⟨es, hmembers, h⟩
    rcases members?_eq_some_iff.1 hmembers with ⟨hreadable, rfl⟩
    rcases htake : takeContext 0 es with ⟨version, rest⟩
    rcases of_takeContext_zero htake with ⟨rfl, hversion⟩
    rw [htake] at h
    dsimp only at h
    split at h
    · next serialNumber algorithm issuer validity subject key tail =>
      split at h
      · next hall =>
        simp only [Bool.and_eq_true, Option.all_eq_true] at hall
        -- Every check that was passed is a field of the signed part.
        rcases hall with
          ⟨⟨⟨⟨⟨⟨hchecked, hserial⟩, halgorithm⟩, hissuer⟩, hvalidity⟩, hsubject⟩, htail⟩
        refine ⟨⟨version, serialNumber, algorithm, issuer, validity, subject, key, tail⟩, ?_, rfl,
          h⟩
        exact {
          version_mem := fun e he => ⟨hversion e he, hchecked e he⟩
          serialNumber := hserial
          algorithm := halgorithm
          issuer := hissuer
          validity := hvalidity
          subject := hsubject
          key := Option.isSome_of_eq_some h
          tail := htail
          readable := hreadable }
      · cases h
    · cases h
  · rintro ⟨part, hpart, rfl, hkey⟩
    have hversion : part.version.all isVersion = true :=
      (Option.all_eq_true _ _).2 fun e he => (hpart.version_mem e he).2
    simp [signedPartKey?, SignedPart.toElement, members?_construct _ hpart.readable,
      hpart.takeContext_members, hversion, hpart.serialNumber, hpart.algorithm, hpart.issuer,
      hpart.validity, hpart.subject, hpart.tail, hkey]

/-! ## Certificates -/

structure Parts where
  signedPart : SignedPart
  algorithm : Element
  signature : Element

namespace Parts

def members (parts : Parts) : List Element :=
  [parts.signedPart.toElement, parts.algorithm, parts.signature]

def toElement (parts : Parts) : Element :=
  construct Tag.sequence parts.members

structure WellFormed (parts : Parts) : Prop where
  signedPart : parts.signedPart.WellFormed
  algorithm : (Algorithm.ofElement? parts.algorithm).isSome = true
  signature : parts.signature.bitString?.isSome = true
  readable : ∀ e ∈ parts.members, e.Readable

end Parts

theorem publicKeyInfo?_eq_some_iff :
    publicKeyInfo? e = some info ↔ ∃ parts : Parts, parts.WellFormed ∧ e = parts.toElement ∧
      PublicKeyInfo.ofElement? parts.signedPart.key = some info := by
  constructor
  · intro h
    simp only [publicKeyInfo?, bind, Option.bind_eq_some_iff] at h
    rcases h with ⟨es, hmembers, h⟩
    rcases members?_eq_some_iff.1 hmembers with ⟨hreadable, rfl⟩
    split at h
    · next signedPart algorithm signature =>
      simp only [Option.bind_eq_some_iff] at h
      rcases h with ⟨found, hfound, h⟩
      rcases signedPartKey?_eq_some_iff.1 hfound with ⟨part, hpart, rfl, hkey⟩
      split at h
      · next hall =>
        cases h
        rw [Bool.and_eq_true] at hall
        exact ⟨⟨part, algorithm, signature⟩, ⟨hpart, hall.1, hall.2, hreadable⟩, rfl, hkey⟩
      · cases h
    · cases h
  · rintro ⟨parts, hparts, rfl, hkey⟩
    have hsigned := signedPartKey?_eq_some_iff.2 ⟨parts.signedPart, hparts.signedPart, rfl, hkey⟩
    have hmembers := members?_construct Tag.sequence hparts.readable
    simp only [publicKeyInfo?, Parts.toElement, hmembers, bind, Option.bind_some]
    simp [Parts.members, hsigned, hparts.algorithm, hparts.signature]

/-- The strings that are read as certificates are those that well-formed parts are written as. -/
theorem ofBytes?_eq_some_iff {data : Bytes} :
    ofBytes? data = some info ↔ ∃ parts : Parts, parts.WellFormed ∧ parts.toElement.Readable ∧
      data = parts.toElement.encode ∧
      PublicKeyInfo.ofElement? parts.signedPart.key = some info := by
  simp only [ofBytes?, Option.bind_eq_some_iff, element?_eq_some_iff, publicKeyInfo?_eq_some_iff]
  constructor
  · rintro ⟨e, ⟨he, rfl⟩, parts, hparts, rfl, hkey⟩
    exact ⟨parts, hparts, he, rfl, hkey⟩
  · rintro ⟨parts, hparts, he, rfl, hkey⟩
    exact ⟨parts.toElement, ⟨he, rfl⟩, parts, hparts, rfl, hkey⟩

/-- A certificate is at the front of itself. -/
theorem ofFront?_of_ofBytes? {data : Bytes} (h : ofBytes? data = some info) :
    ofFront? data = some info := by
  simp only [ofBytes?, Option.bind_eq_some_iff, element?_eq_some_iff] at h
  rcases h with ⟨e, ⟨he, rfl⟩, hinfo⟩
  have htake : takeElement e.encode = some (e, []) :=
    takeElement_eq_some_iff.2 ⟨he, (List.append_nil _).symm⟩
  simp [ofFront?, htake, hinfo]

/-! ## The key in a certificate -/

/-- An octet string is a certificate, and this is the public key in it, as it is written there. -/
def Carries (certificate info : Bytes) : Prop :=
  ∃ parts : Parts, parts.WellFormed ∧ parts.toElement.Readable ∧
    certificate = parts.toElement.encode ∧ info = parts.signedPart.key.encode

/-- Every string that is read as a certificate carries a key, and what is read in the certificate
is what is read in the key alone. -/
theorem exists_carries_of_isSome {data : Bytes} (h : (ofBytes? data).isSome = true) :
    ∃ key, Carries data key := by
  rcases Option.isSome_iff_exists.1 h with ⟨info, hinfo⟩
  rcases ofBytes?_eq_some_iff.1 hinfo with ⟨parts, hparts, hreadable, rfl, -⟩
  exact ⟨_, parts, hparts, hreadable, rfl, rfl⟩

theorem Carries.ofBytes?_eq {certificate key : Bytes} (h : Carries certificate key) :
    ofBytes? certificate = PublicKeyInfo.ofBytes? key ∧ (ofBytes? certificate).isSome = true := by
  rcases h with ⟨parts, hparts, hreadable, rfl, rfl⟩
  rcases Option.isSome_iff_exists.1 hparts.signedPart.key with ⟨info, hinfo⟩
  have hkey : parts.signedPart.key.Readable :=
    hparts.signedPart.readable _ (by simp [SignedPart.members])
  have hfound := ofBytes?_eq_some_iff.2 ⟨parts, hparts, hreadable, rfl, hinfo⟩
  rw [PublicKeyInfo.ofBytes?_encode hkey, hinfo, hfound]
  exact ⟨rfl, rfl⟩

/-! ## A certificate for any key -/

/-- The first second of the year 1970. -/
def epoch : Element :=
  ⟨Tag.utcTime, [0x37, 0x30, 0x30, 0x31, 0x30, 0x31, 0x30, 0x30, 0x30, 0x30, 0x30, 0x30, 0x5a]⟩

def emptyName : Element :=
  construct Tag.sequence []

def plainValidity : Element :=
  construct Tag.sequence [epoch, epoch]

/-- What stands in front of the key in a signed part with nothing else in it. -/
def plainFront : List Element :=
  [Element.ofUint 1, Algorithm.rsa.toElement, emptyName, plainValidity, emptyName]

/-- What stands behind the signed part in such a certificate. -/
def plainBack : List Element :=
  [Algorithm.rsa.toElement, Element.ofBitString ⟨0, []⟩]

def plainPart (key : Element) : SignedPart where
  version := none
  serialNumber := Element.ofUint 1
  algorithm := Algorithm.rsa.toElement
  issuer := emptyName
  validity := plainValidity
  subject := emptyName
  key := key
  tail := []

def plainParts (key : Element) : Parts where
  signedPart := plainPart key
  algorithm := Algorithm.rsa.toElement
  signature := Element.ofBitString ⟨0, []⟩

theorem readable_plain : ∀ e ∈ plainFront ++ plainBack, e.Readable := by
  have hall : ∀ e ∈ plainFront ++ plainBack,
      Tag.isValid e.tag = true ∧ e.content.length ≤ maxLength := by
    decide +kernel
  exact fun e he => ⟨(hall e he).1, (hall e he).2⟩

theorem members_plainPart (key : Element) : (plainPart key).members = plainFront ++ [key] := rfl

theorem members_plainParts (key : Element) :
    (plainParts key).members = (plainPart key).toElement :: plainBack := rfl

theorem length_content_plainPart (key : Element) :
    (plainPart key).toElement.content.length = 54 + key.encode.length := by
  have hfront : (plainFront.flatMap Element.encode).length = 54 := by
    decide +kernel
  simp [SignedPart.toElement, construct, members_plainPart, hfront]

theorem length_content_plainParts (key : Element) :
    (plainParts key).toElement.content.length = (plainPart key).toElement.encode.length + 18 := by
  have hback : (plainBack.flatMap Element.encode).length = 18 := by
    decide +kernel
  simp [Parts.toElement, construct, members_plainParts, hback]

theorem wellFormed_plainPart {key : Element} (h : key.Readable)
    (hinfo : (PublicKeyInfo.ofElement? key).isSome = true) : (plainPart key).WellFormed where
  version_mem := nofun
  serialNumber := (by decide : isSerialNumber (Element.ofUint 1) = true)
  algorithm := (by decide +kernel : (Algorithm.ofElement? Algorithm.rsa.toElement).isSome = true)
  issuer := (by decide +kernel : isName emptyName = true)
  validity := (by decide +kernel : isValidity plainValidity = true)
  subject := (by decide +kernel : isName emptyName = true)
  key := hinfo
  tail := rfl
  readable := by
    rw [members_plainPart]
    exact List.forall_mem_append.2
      ⟨(List.forall_mem_append.1 readable_plain).1, List.forall_mem_singleton.2 h⟩

/-- There is a certificate for any key that is not too long. -/
theorem exists_carries {key : Element} (h : key.Readable)
    (hinfo : (PublicKeyInfo.ofElement? key).isSome = true) (hlength : key.content.length ≤ 2000) :
    ∃ certificate, Carries certificate key.encode := by
  -- What surrounds the key is short, so that the length of the whole can be written too.
  have hmax : maxLength = 268435455 := rfl
  have hkey := length_encode_le key
  have hpart := length_content_plainPart key
  have hsigned := length_encode_le (plainPart key).toElement
  have hparts := length_content_plainParts key
  have hwellFormed : (plainParts key).WellFormed := {
    signedPart := wellFormed_plainPart h hinfo
    algorithm := (by decide +kernel :
      (Algorithm.ofElement? Algorithm.rsa.toElement).isSome = true)
    signature := (by decide : (Element.ofBitString ⟨0, []⟩).bitString?.isSome = true)
    readable := by
      rw [members_plainParts]
      exact List.forall_mem_cons.2 ⟨readable_construct (Nat.le_trans (Nat.le_of_eq hpart)
        (by omega)), (List.forall_mem_append.1 readable_plain).2⟩ }
  exact ⟨_, plainParts key, hwellFormed,
    readable_construct (Nat.le_trans (Nat.le_of_eq hparts) (by omega)), rfl, rfl⟩

end SecureBoot.Certificate
