import SecureBoot.Image
import SecureBoot.Signer

/-!
# OTA-signed images

An `OtaImage` is a boot-signed image, its body, followed by a record: the hash of a signature block,
and the block, whose signature is over the whole body.  The record is not padded.

* `OtaImage.ofBytes` admits the octet strings of the right length; the type keeps that property.
* `OtaImage.sign` signs a body; it asks the signer once, for the digest of the body, and
  `OtaImage.assemble` builds the signed image from the answer.
* `OtaImage.verify` checks a signed image against a trusted key.
-/

namespace SecureBoot

@[ext] structure OtaImage where
  toBytes : Bytes
  /-- It consists of whole sectors and a record. -/
  length_mod : toBytes.length % Layout.sectorLength = Layout.otaRecordLength
  /-- There is at least one whole sector. -/
  le_length : Layout.sectorLength ≤ toBytes.length
  deriving Repr

instance : DecidableEq OtaImage :=
  fun _ _ => decidable_of_iff _ OtaImage.ext_iff.symm

namespace OtaImage

/-! ## Parts -/

/-- What is signed: all sectors. -/
def body (image : OtaImage) : Bytes :=
  image.toBytes.take (image.toBytes.length - Layout.otaRecordLength)

/-- The hash of the block, and the block. -/
def record (image : OtaImage) : Octets Layout.otaRecordLength :=
  ⟨image.toBytes.drop (image.toBytes.length - Layout.otaRecordLength), by
    have h : 4096 ≤ image.toBytes.length := image.le_length
    rw [List.length_drop, Layout.otaRecordLength_eq]
    omega⟩

/-- The hash that stands in front of the block. -/
def blockHash (image : OtaImage) : Digest :=
  image.record.slice 0 32 (by decide)

/-- The octets of the signature block. -/
def blockOctets (image : OtaImage) : Octets Layout.blockLength :=
  image.record.slice Layout.otaHashLength Layout.blockLength (by decide)

/-- The signature block, which need not be valid. -/
def block (image : OtaImage) : SignatureBlock :=
  SignatureBlock.ofOctets image.blockOctets

theorem body_append_record (image : OtaImage) :
    image.body ++ image.record.toBytes = image.toBytes := by
  rw [body, record, List.take_append_drop]

/-- The image that an octet string of the right length is; nothing in it is verified. -/
def ofBytes (image : Bytes) : Checked OtaImage :=
  if h : image.length % Layout.sectorLength = Layout.otaRecordLength ∧
      Layout.sectorLength ≤ image.length then
    .ok ⟨image, h.1, h.2⟩
  else .error ((Fault.of (.imageLength image.length Layout.otaRecordLength)).on .otaImage)

/-! ## Signing -/

theorem length_framed (body : Bytes) (hash : Digest) (block : SignatureBlock) :
    (body ++ hash.toBytes ++ block.toBytes).length = body.length + Layout.otaRecordLength := by
  rw [List.length_append, List.length_append, SignatureBlock.toBytes, Octets.length_toBytes,
    Octets.length_toBytes, Nat.add_assoc]

theorem length_framed_mod {body : Bytes} (h : body.length % Layout.sectorLength = 0) (hash : Digest)
    (block : SignatureBlock) :
    (body ++ hash.toBytes ++ block.toBytes).length % Layout.sectorLength =
      Layout.otaRecordLength := by
  rw [length_framed, Nat.add_mod, h]
  rfl

theorem le_length_framed {body : Bytes} (h : Layout.sectorLength ≤ body.length) (hash : Digest)
    (block : SignatureBlock) :
    Layout.sectorLength ≤ (body ++ hash.toBytes ++ block.toBytes).length := by
  rw [length_framed]
  exact Nat.le_add_right_of_le h

/-- The signed image, from a body that consists of whole sectors, its digest and the signature over
it. -/
def assemble (body : Bytes) (digest : Digest) (key : KeyRecord) (signature : Signature)
    (h : body.length % Layout.sectorLength = 0 ∧ Layout.sectorLength ≤ body.length) :
    OtaImage where
  toBytes :=
    let block := SignatureBlock.pack digest key signature
    body ++ (Sha256.digest block.toBytes).toBytes ++ block.toBytes
  length_mod := length_framed_mod h.1 _ _
  le_length := le_length_framed h.2 _ _

/-- Sign a boot-signed image; the key is the one that verifies the signer's signatures. -/
def sign {m : Type → Type} [Monad m] {σ : Type} (bootSigned : Bytes) (key : KeyRecord)
    (signer : Signer m σ) : m (Except (Fault σ) OtaImage) :=
  match h : Image.requireLength bootSigned 0 .bootImage with
  | .error fault => return .error fault.widen
  | .ok () => do
    let digest := Sha256.digest bootSigned
    return match ← signer digest with
    | .ok signature =>
      .ok (assemble bootSigned digest key signature (Image.length_of_requireLength h))
    | .error failure => .error ((Fault.of (.signer failure)).on .otaImage)

/-! ## Verification -/

/-- Check the hash of the block, the block, the trusted key, the digest and the signature, in this
order. -/
def verifyBlock (image : OtaImage) (trusted : KeyRecord) : Checked SignatureBlock := do
  if Sha256.digest image.blockOctets.toBytes ≠ image.blockHash then
    throw (Fault.of .blockHash)
  let block := image.block
  block.validate
  -- The key in the block takes no part.
  let key ← trusted.rsaKey
  block.verifyDigest (Sha256.digest image.body) key
  return block

/-- The block of a signed image, if the image verifies against the trusted key. -/
def verify (image : Bytes) (trusted : KeyRecord) : Checked SignatureBlock :=
  (do (← ofBytes image).verifyBlock trusted).mapError (Fault.on .otaImage)

end OtaImage

end SecureBoot
