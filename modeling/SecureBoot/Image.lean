import SecureBoot.Fault
import SecureBoot.Hash.Sha256

/-!
# Images

An image is an octet string.  It is signed as a whole number of sectors: `Image.align` pads it with
`0xFF` to the next sector boundary.

* `Image.digestBoot` is the digest that a boot signature is over, of the padded image; the padding
  is hashed in pieces and never built.  `Image.digestBoot_eq` says that this makes no difference.
* `Image.digestOtaBody` is the digest that an OTA signature is over, of a boot-signed image.
* `Image.requireLength` is the check that the length of an image is admitted.
-/

namespace SecureBoot.Image

/-- How many octets are missing to the next sector boundary. -/
def paddingLength (length : Nat) : Nat :=
  (Layout.sectorLength - length % Layout.sectorLength) % Layout.sectorLength

def fill (length : Nat) : Bytes :=
  List.replicate length Layout.fillOctet

@[simp] theorem length_fill (length : Nat) : (fill length).length = length :=
  List.length_replicate

def align (image : Bytes) : Bytes :=
  image ++ fill (paddingLength image.length)

theorem length_align_mod (image : Bytes) :
    (align image).length % Layout.sectorLength = 0 := by
  simp only [align, List.length_append, length_fill, paddingLength, Layout.sectorLength]
  omega

/-! ## Digests -/

/-- The longest piece of padding that is hashed at once. -/
abbrev fillPiece : Nat := 256

/-- Hash so many octets of padding, piece by piece. -/
def hashFill (hasher : Sha256.Hasher) (remaining : Nat) : Sha256.Hasher :=
  if _h : remaining = 0 then hasher
  else
    let piece := min remaining fillPiece
    hashFill (hasher.update (fill piece)) (remaining - piece)
termination_by remaining
decreasing_by
  simp only [fillPiece]
  omega

def digestBoot (image : Bytes) : Digest :=
  (hashFill (Sha256.Hasher.start.update image) (paddingLength image.length)).finish

theorem hashFill_update (hasher : Sha256.Hasher) (bs : Bytes) (remaining : Nat) :
    hashFill (hasher.update bs) remaining = hasher.update (bs ++ fill remaining) := by
  generalize hstart : hasher.update bs = start
  fun_induction hashFill start remaining generalizing bs with
  | case1 => simp [fill, ← hstart]
  | case2 start remaining h piece ih =>
    have hpiece : piece + (remaining - piece) = remaining := by omega
    rw [ih (bs ++ fill piece) (by rw [← hstart, Sha256.Hasher.update_update]), List.append_assoc,
      fill, fill, fill, List.replicate_append_replicate, hpiece]

/-- Hashing image and padding in pieces gives the digest of the padded image. -/
theorem digestBoot_eq (image : Bytes) : digestBoot image = Sha256.digest (align image) := by
  rw [digestBoot, hashFill_update, Sha256.Hasher.finish_update_start, align]

/-! ## Lengths -/

/-- Refuse an image that has not the given remainder modulo the sector length, or is shorter than a
sector. -/
def requireLength (image : Bytes) (remainder : Nat) (artifact : Artifact) : Checked Unit :=
  let length := image.length
  if length % Layout.sectorLength ≠ remainder ∨ length < Layout.sectorLength then
    .error ((Fault.of (.imageLength length remainder)).on artifact)
  else .ok ()

theorem length_of_requireLength {image : Bytes} {remainder : Nat} {artifact : Artifact}
    (h : requireLength image remainder artifact = .ok ()) :
    image.length % Layout.sectorLength = remainder ∧ Layout.sectorLength ≤ image.length := by
  simp only [requireLength] at h
  split at h
  · cases h
  · omega

/-- The digest of a boot-signed image, signature sector included. -/
def digestOtaBody (bootSigned : Bytes) : Checked Digest := do
  requireLength bootSigned 0 .bootImage
  return Sha256.digest bootSigned

end SecureBoot.Image
