import SecureBoot.Image
import SecureBoot.Signer

/-!
# Boot-signed images

A `BootImage` is a whole number of sectors.  The last one is the signature sector: it starts with a
signature block over all sectors before it, its payload, and is filled up with `0xFF`.

* `BootImage.ofBytes` admits the octet strings of the right length; the type keeps that property.
* `BootImage.sign` signs an image; it asks the signer once, for the digest of the padded image, and
  `BootImage.assemble` builds the signed image from the answer.
* `BootImage.verify` checks a signed image against a trusted key.
-/

namespace SecureBoot

@[ext] structure BootImage where
  toBytes : Bytes
  /-- It consists of whole sectors. -/
  length_mod : toBytes.length % Layout.sectorLength = 0
  /-- One of them is the signature sector. -/
  le_length : Layout.sectorLength ≤ toBytes.length
  deriving Repr

instance : DecidableEq BootImage :=
  fun _ _ => decidable_of_iff _ BootImage.ext_iff.symm

namespace BootImage

/-! ## Parts -/

/-- What is signed: all sectors but the last. -/
def payload (image : BootImage) : Bytes :=
  image.toBytes.take (image.toBytes.length - Layout.sectorLength)

/-- The last sector. -/
def sector (image : BootImage) : Octets Layout.sectorLength :=
  ⟨image.toBytes.drop (image.toBytes.length - Layout.sectorLength), by
    have := image.le_length
    rw [List.length_drop]
    omega⟩

/-- The octets of the signature block. -/
def blockOctets (image : BootImage) : Octets Layout.blockLength :=
  image.sector.slice 0 Layout.blockLength (by decide)

/-- The signature block, which need not be valid. -/
def block (image : BootImage) : SignatureBlock :=
  SignatureBlock.ofOctets image.blockOctets

theorem payload_append_sector (image : BootImage) :
    image.payload ++ image.sector.toBytes = image.toBytes := by
  rw [payload, sector, List.take_append_drop]

/-- The image that an octet string of the right length is; nothing in it is verified. -/
def ofBytes (image : Bytes) : Checked BootImage :=
  if h : image.length % Layout.sectorLength = 0 ∧ Layout.sectorLength ≤ image.length then
    .ok ⟨image, h.1, h.2⟩
  else .error ((Fault.of (.imageLength image.length 0)).on .bootImage)

/-! ## Signing -/

/-- What stands behind the block in the signature sector. -/
abbrev sectorFill : Bytes :=
  Image.fill (Layout.sectorLength - Layout.blockLength)

/-- The signed image, from the image, the digest of its padded form and the signature over it. -/
def assemble (image : Bytes) (digest : Digest) (key : KeyRecord) (signature : Signature) :
    BootImage where
  toBytes := Image.align image ++ (SignatureBlock.pack digest key signature).toBytes ++ sectorFill
  length_mod := by
    have h := Image.length_align_mod image
    simp only [List.length_append, SignatureBlock.toBytes, Octets.length_toBytes,
      Image.length_fill, Layout.sectorLength, Layout.blockLength_eq] at h ⊢
    omega
  le_length := by
    simp only [List.length_append, SignatureBlock.toBytes, Octets.length_toBytes,
      Image.length_fill, Layout.sectorLength]
    omega

/-- Sign an image; the key is the one that verifies the signer's signatures. -/
def sign {m : Type → Type} [Monad m] {σ : Type} (image : Bytes) (key : KeyRecord)
    (signer : Signer m σ) : m (Except (Fault σ) BootImage) := do
  let digest := Sha256.digest (Image.align image)
  return match ← signer digest with
  | .ok signature => .ok (assemble image digest key signature)
  | .error failure => .error ((Fault.of (.signer failure)).on .bootImage)

/-! ## Verification -/

/-- Check the block, the trusted key, the digest and the signature, in this order. -/
def verifyBlock (image : BootImage) (trusted : KeyRecord) : Checked SignatureBlock := do
  let block := image.block
  block.validate
  -- The key in the block takes no part.
  let key ← trusted.rsaKey
  block.verifyDigest (Sha256.digest image.payload) key
  return block

/-- The block of a signed image, if the image verifies against the trusted key. -/
def verify (image : Bytes) (trusted : KeyRecord) : Checked SignatureBlock :=
  (do (← ofBytes image).verifyBlock trusted).mapError (Fault.on .bootImage)

end BootImage

end SecureBoot
