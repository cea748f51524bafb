import SecureBoot.Proofs.Layers

/-!
# ImageParts — signed images fall into their parts, and no position lies outside

The parts of a signed image are counted from its end, so an image must be long enough to have them.
`BootImage.payload?`, `BootImage.block?`, `OtaImage.body?`, `OtaImage.blockHash?` and
`OtaImage.block?` cut them out of any octet string, with no result if a position lies outside.

A signed image comes about in two ways (`Stage.Obtainable`): a string of the right length is taken
as it is, or an operation that signs puts it together without looking at its length.  Either way it
has the right length, all parts are there, and they make up the whole (`images_fall_into_parts`).
-/

namespace SecureBoot

/-! ## Positions -/

/-- A difference, if it is not below zero. -/
def sub? (a b : Nat) : Option Nat :=
  if b ≤ a then some (a - b) else none

/-- The octets from a position up to another one, if both lie in the string and in this order. -/
def slice? (bs : Bytes) (start stop : Nat) : Option Bytes :=
  if start ≤ stop ∧ stop ≤ bs.length then some (segment bs start (stop - start)) else none

theorem sub?_add (a b : Nat) : sub? (a + b) b = some a := by
  rw [sub?, if_pos (Nat.le_add_left b a), Nat.add_sub_cancel]

theorem slice?_append {front data rest : Bytes} {start stop : Nat} (hstart : start = front.length)
    (hstop : stop = front.length + data.length) :
    slice? (front ++ data ++ rest) start stop = some data := by
  have hlen : (front ++ data ++ rest).length = front.length + data.length + rest.length := by
    rw [List.length_append, List.length_append]
  rw [hstart, hstop, slice?, if_pos ⟨Nat.le_add_right _ _, hlen ▸ Nat.le_add_right _ _⟩,
    Nat.add_sub_cancel_left]
  exact congrArg some (segment_append front rest rfl)

theorem slice?_zero_append (data rest : Bytes) :
    slice? (data ++ rest) 0 data.length = some data := by
  have hempty : (0 : Nat) = ([] : Bytes).length := rfl
  exact slice?_append hempty (Nat.zero_add data.length).symm

theorem Octets.toBytes_slice_zero {n len : Nat} (o : Octets n) (h : 0 + len ≤ n) :
    (o.slice 0 len h).toBytes = o.toBytes.take len := by
  simp only [slice, List.drop_zero]

theorem Octets.toBytes_slice_end {n start len : Nat} (o : Octets n) (h : start + len = n) :
    (o.slice start len h.le).toBytes = o.toBytes.drop start := by
  have hlen : (o.toBytes.drop start).length ≤ len := by
    rw [List.length_drop, o.length_toBytes]
    omega
  simp only [slice, List.take_of_length_le hlen]

theorem SignatureBlock.toBytes_ofOctets (data : Octets Layout.blockLength) :
    (ofOctets data).toBytes = data.toBytes :=
  congrArg Octets.toBytes (toOctets_ofOctets data)

/-! ## Boot-signed images -/

namespace BootImage

def payload? (bytes : Bytes) : Option Bytes := do
  slice? bytes 0 (← sub? bytes.length Layout.sectorLength)

def block? (bytes : Bytes) : Option (Checked SignatureBlock) := do
  let start ← sub? bytes.length Layout.sectorLength
  let data ← slice? bytes start (start + Layout.blockLength)
  return SignatureBlock.parse data

/-- An octet string is a boot-signed image and consists of its payload, its block and the rest of a
sector. -/
structure FallsIntoParts (bytes : Bytes) (image : BootImage) : Prop where
  toBytes_eq : image.toBytes = bytes
  payload_eq : payload? bytes = some image.payload
  block_eq : block? bytes = some (.ok image.block)
  exists_rest : ∃ rest, rest.length = 2880 ∧ image.payload ++ image.block.toBytes ++ rest = bytes

section Framed

variable {front data rest : Bytes} (hdata : data.length = Layout.blockLength)
  (hrest : rest.length = 2880)

include hdata hrest

theorem sub?_sector : sub? (front ++ data ++ rest).length Layout.sectorLength =
    some front.length := by
  have hlen : (front ++ data ++ rest).length = front.length + Layout.sectorLength := by
    rw [List.length_append, List.length_append, hdata, hrest, Nat.add_assoc]
    rfl
  rw [hlen, sub?_add]

theorem payload?_framed : payload? (front ++ data ++ rest) = some front := by
  have hslice : slice? (front ++ data ++ rest) 0 front.length = some front := by
    rw [List.append_assoc]
    exact slice?_zero_append front _
  rw [payload?, sub?_sector hdata hrest]
  exact hslice

theorem block?_framed :
    block? (front ++ data ++ rest) = some (SignatureBlock.parse data) := by
  have hslice : slice? (front ++ data ++ rest) front.length
      (front.length + Layout.blockLength) = some data :=
    slice?_append rfl (congrArg (front.length + ·) hdata.symm)
  rw [block?, sub?_sector hdata hrest]
  simp only [Option.bind_eq_bind, Option.bind_some, hslice]
  rfl

end Framed

/-- The block is the start of the last sector. -/
theorem exists_rest (image : BootImage) :
    ∃ rest, rest.length = 2880 ∧
      image.payload ++ image.block.toBytes ++ rest = image.toBytes := by
  have hblock : image.block.toBytes = image.sector.toBytes.take Layout.blockLength :=
    (SignatureBlock.toBytes_ofOctets _).trans (image.sector.toBytes_slice_zero (by decide))
  have hrest : (image.sector.toBytes.drop Layout.blockLength).length = 2880 := by
    rw [List.length_drop, image.sector.length_toBytes]
    rfl
  refine ⟨image.sector.toBytes.drop Layout.blockLength, hrest, ?_⟩
  rw [List.append_assoc, hblock, List.take_append_drop, payload_append_sector]

theorem toBytes_of_ofBytes {buffer : Bytes} {image : BootImage} (h : ofBytes buffer = .ok image) :
    image.toBytes = buffer := by
  unfold ofBytes at h
  split at h
  · cases h
    rfl
  · cases h

theorem fallsIntoParts (image : BootImage) : FallsIntoParts image.toBytes image := by
  rcases image.exists_rest with ⟨rest, hrest, hbytes⟩
  have hdata : image.block.toBytes.length = Layout.blockLength := image.block.length_toBytes
  refine ⟨rfl, ?_, ?_, rest, hrest, hbytes⟩
  · rw [← hbytes, payload?_framed hdata hrest]
  · rw [← hbytes, block?_framed hdata hrest, SignatureBlock.parse_eq_ok_iff.2 rfl]

end BootImage

/-! ## OTA-signed images -/

namespace OtaImage

def bodyEnd? (bytes : Bytes) : Option Nat :=
  sub? bytes.length Layout.otaRecordLength

def body? (bytes : Bytes) : Option Bytes := do
  slice? bytes 0 (← bodyEnd? bytes)

def blockHash? (bytes : Bytes) : Option Bytes := do
  let start ← bodyEnd? bytes
  slice? bytes start (start + Layout.otaHashLength)

def block? (bytes : Bytes) : Option (Checked SignatureBlock) := do
  let start ← bodyEnd? bytes
  let data ← slice? bytes (start + Layout.otaHashLength) bytes.length
  return SignatureBlock.parse data

/-- An octet string is an OTA-signed image and consists of its body, the hash and the block.  The
body is a boot-signed image, and nothing but a signer can keep it from being signed again. -/
structure FallsIntoParts (bytes : Bytes) (image : OtaImage) : Prop where
  toBytes_eq : image.toBytes = bytes
  body_eq : body? bytes = some image.body
  blockHash_eq : blockHash? bytes = some image.blockHash.toBytes
  block_eq : block? bytes = some (.ok image.block)
  append_eq : image.body ++ image.blockHash.toBytes ++ image.block.toBytes = bytes
  exists_ofBytes : ∃ boot : BootImage, BootImage.ofBytes image.body = .ok boot
  digest_body : Image.digestOtaBody image.body = .ok (Sha256.digest image.body)
  sign_body : ∀ {m : Type → Type} [Monad m] [LawfulMonad m] {σ : Type} (key : KeyRecord)
    (signer : Signer m σ), ∃ assembled : Signature → OtaImage,
      sign image.body key signer =
        ofAnswer .otaImage assembled <$> signer (Sha256.digest image.body)

section Framed

variable {front hash data : Bytes} (hhash : hash.length = Layout.otaHashLength)
  (hdata : data.length = Layout.blockLength)

include hhash hdata

theorem bodyEnd?_framed : bodyEnd? (front ++ hash ++ data) = some front.length := by
  have hlen : (front ++ hash ++ data).length = front.length + Layout.otaRecordLength := by
    rw [List.length_append, List.length_append, hhash, hdata, Nat.add_assoc]
  rw [bodyEnd?, hlen, sub?_add]

theorem body?_framed : body? (front ++ hash ++ data) = some front := by
  have hslice : slice? (front ++ hash ++ data) 0 front.length = some front := by
    rw [List.append_assoc]
    exact slice?_zero_append front _
  rw [body?, bodyEnd?_framed hhash hdata]
  exact hslice

theorem blockHash?_framed : blockHash? (front ++ hash ++ data) = some hash := by
  rw [blockHash?, bodyEnd?_framed hhash hdata]
  exact slice?_append rfl (congrArg (front.length + ·) hhash.symm)

theorem block?_framed :
    block? (front ++ hash ++ data) = some (SignatureBlock.parse data) := by
  have hslice : slice? (front ++ hash ++ data) (front.length + Layout.otaHashLength)
      (front ++ hash ++ data).length = some data := by
    have happend : front ++ hash ++ data = front ++ hash ++ data ++ [] :=
      (List.append_nil _).symm
    rw [happend]
    refine slice?_append ?_ ?_
    · rw [List.length_append, hhash]
    · rw [List.append_nil, List.length_append]
  rw [block?, bodyEnd?_framed hhash hdata]
  simp only [Option.bind_eq_bind, Option.bind_some, hslice]
  rfl

end Framed

/-- The record is the hash and the block. -/
theorem append_eq (image : OtaImage) :
    image.body ++ image.blockHash.toBytes ++ image.block.toBytes = image.toBytes := by
  have hhash : image.blockHash.toBytes = image.record.toBytes.take Layout.otaHashLength :=
    image.record.toBytes_slice_zero (by decide)
  have hblock : image.block.toBytes = image.record.toBytes.drop Layout.otaHashLength :=
    (SignatureBlock.toBytes_ofOctets _).trans (image.record.toBytes_slice_end rfl)
  rw [List.append_assoc, hhash, hblock, List.take_append_drop, body_append_record]

theorem exists_toBytes_body (image : OtaImage) : ∃ boot : BootImage, boot.toBytes = image.body := by
  have hmod : image.toBytes.length % 4096 = 1248 := image.length_mod
  have hle : 4096 ≤ image.toBytes.length := image.le_length
  have hlen : image.body.length = image.toBytes.length - 1248 :=
    List.length_take_of_le (Nat.sub_le _ _)
  exact BootImage.exists_toBytes_eq (by omega)

theorem toBytes_of_ofBytes {buffer : Bytes} {image : OtaImage} (h : ofBytes buffer = .ok image) :
    image.toBytes = buffer := by
  unfold ofBytes at h
  split at h
  · cases h
    rfl
  · cases h

theorem fallsIntoParts (image : OtaImage) : FallsIntoParts image.toBytes image := by
  have hhash : image.blockHash.toBytes.length = Layout.otaHashLength :=
    image.blockHash.length_toBytes
  have hdata : image.block.toBytes.length = Layout.blockLength := image.block.length_toBytes
  rcases image.exists_toBytes_body with ⟨boot, hboot⟩
  refine ⟨rfl, ?_, ?_, ?_, image.append_eq, ⟨boot, ?_⟩, ?_, ?_⟩
  · rw [← image.append_eq, body?_framed hhash hdata]
  · rw [← image.append_eq, blockHash?_framed hhash hdata]
  · rw [← image.append_eq, block?_framed hhash hdata, SignatureBlock.parse_eq_ok_iff.2 rfl]
  · rw [← hboot, BootImage.ofBytes_toBytes]
  · rw [← hboot, Image.digestOtaBody_toBytes]
  · intro m _ _ σ key signer
    exact ⟨_, sign_eq_map (hboot ▸ boot.length_toBytes) key signer⟩

end OtaImage

/-! ## Every image that comes about -/

namespace Stage

/-- Take an octet string for an image of a stage, if its length is right. -/
def ofBytes : Stage → Bytes → Checked Bytes
  | boot, buffer => BootImage.toBytes <$> BootImage.ofBytes buffer
  | ota, buffer => OtaImage.toBytes <$> OtaImage.ofBytes buffer

/-- The images of a stage: what is taken for one, and what a successful operation puts together. -/
inductive Obtainable (stage : Stage) (bytes : Bytes) : Prop where
  | admitted {buffer : Bytes} (h : stage.ofBytes buffer = .ok bytes) : Obtainable stage bytes
  | signed {World σ : Type} {buffer : Bytes} {key : KeyRecord} {signer : Signer (StateM World) σ}
      {world world' : World}
      (h : (stage.sign buffer key signer).run world = (.ok bytes, world')) :
      Obtainable stage bytes

/-- The lengths of the images of a stage. -/
def HasLength : Stage → Bytes → Prop
  | boot, bytes => bytes.length % 4096 = 0 ∧ bytes.length ≠ 0
  | ota, bytes => bytes.length % 4096 = 1248 ∧ 5344 ≤ bytes.length

theorem ofBytes_of_hasLength {stage : Stage} {buffer : Bytes} (h : stage.HasLength buffer) :
    stage.ofBytes buffer = .ok buffer := by
  cases stage with
  | boot =>
      rcases BootImage.exists_toBytes_eq h with ⟨image, rfl⟩
      rw [ofBytes, BootImage.ofBytes_toBytes]
      rfl
  | ota =>
      rcases OtaImage.exists_toBytes_eq ⟨h.1, le_trans (by decide) h.2⟩ with ⟨image, rfl⟩
      rw [ofBytes, OtaImage.ofBytes_toBytes]
      rfl

theorem exists_of_map_eq_ok {α β : Type} {f : α → β} {x : Checked α} {b : β}
    (h : f <$> x = .ok b) : ∃ a, x = .ok a ∧ f a = b := by
  cases x with
  | ok a => exact ⟨a, rfl, Except.ok.inj h⟩
  | error fault => cases h

theorem Obtainable.exists_boot {bytes : Bytes} (h : boot.Obtainable bytes) :
    ∃ image : BootImage, image.toBytes = bytes := by
  cases h with
  | @admitted buffer h =>
      rcases exists_of_map_eq_ok h with ⟨image, -, hbytes⟩
      exact ⟨image, hbytes⟩
  | @signed _ _ buffer key _ _ _ h =>
      rcases exists_of_run_sign h with ⟨-, signature, -, rfl⟩
      rcases exists_wrap_boot buffer key signature with ⟨image, hbytes, -, -⟩
      exact ⟨image, hbytes⟩

theorem Obtainable.exists_ota {bytes : Bytes} (h : ota.Obtainable bytes) :
    ∃ image : OtaImage, image.toBytes = bytes := by
  cases h with
  | @admitted buffer h =>
      rcases exists_of_map_eq_ok h with ⟨image, -, hbytes⟩
      exact ⟨image, hbytes⟩
  -- The operation does not look at the length of what it has made, only at what it signs.
  | @signed _ _ buffer key _ _ _ h =>
      rcases exists_of_run_sign h with ⟨hadmits, signature, -, rfl⟩
      rcases exists_wrap_ota buffer key signature hadmits with ⟨image, hbytes, -, -⟩
      exact ⟨image, hbytes⟩

theorem hasLength_boot (image : BootImage) : boot.HasLength image.toBytes :=
  image.whole_sectors

theorem hasLength_ota (image : OtaImage) : ota.HasLength image.toBytes := by
  have hmod : image.toBytes.length % 4096 = 1248 := image.length_mod
  have hle : 4096 ≤ image.toBytes.length := image.le_length
  exact ⟨hmod, by omega⟩

theorem Obtainable.hasLength {stage : Stage} {bytes : Bytes} (h : stage.Obtainable bytes) :
    stage.HasLength bytes := by
  cases stage with
  | boot =>
      rcases h.exists_boot with ⟨image, rfl⟩
      exact hasLength_boot image
  | ota =>
      rcases h.exists_ota with ⟨image, rfl⟩
      exact hasLength_ota image

/-- A string of any other length is refused, and what is taken is taken as it is. -/
theorem ofBytes_eq_ok_iff {stage : Stage} {buffer bytes : Bytes} :
    stage.ofBytes buffer = .ok bytes ↔ stage.HasLength buffer ∧ bytes = buffer := by
  constructor
  · intro h
    have hbytes : bytes = buffer := by
      cases stage with
      | boot =>
          rcases exists_of_map_eq_ok h with ⟨image, himage, rfl⟩
          exact BootImage.toBytes_of_ofBytes himage
      | ota =>
          rcases exists_of_map_eq_ok h with ⟨image, himage, rfl⟩
          exact OtaImage.toBytes_of_ofBytes himage
    exact ⟨hbytes ▸ (Obtainable.admitted h).hasLength, hbytes⟩
  · rintro ⟨hlength, rfl⟩
    exact ofBytes_of_hasLength hlength

end Stage

theorem Layer.Performed.obtainable {layer : Layer} (h : layer.Performed) :
    layer.stage.Obtainable layer.after := by
  rcases h with ⟨World, σ, signer, world, world', -, hsign⟩
  exact .signed hsign

/-- Each stage takes the strings of its lengths and no others for its images.  All its images have
such a length, also those that an operation has put together, and fall into their parts. -/
theorem images_fall_into_parts :
    (∀ (stage : Stage) (buffer bytes : Bytes),
      stage.ofBytes buffer = .ok bytes ↔ stage.HasLength buffer ∧ bytes = buffer) ∧
    (∀ (stage : Stage) (bytes : Bytes), stage.Obtainable bytes → stage.HasLength bytes) ∧
    (∀ bytes : Bytes, Stage.boot.Obtainable bytes →
      ∃ image, BootImage.FallsIntoParts bytes image) ∧
    ∀ bytes : Bytes, Stage.ota.Obtainable bytes →
      ∃ image, OtaImage.FallsIntoParts bytes image := by
  refine ⟨fun _ _ _ => Stage.ofBytes_eq_ok_iff, fun _ _ h => h.hasLength, ?_, ?_⟩
  · intro bytes h
    rcases h.exists_boot with ⟨image, rfl⟩
    exact ⟨image, image.fallsIntoParts⟩
  · intro bytes h
    rcases h.exists_ota with ⟨image, rfl⟩
    exact ⟨image, image.fallsIntoParts⟩

/-- The signed images that two signings put together, and 4096 zeros that were never signed. -/
theorem images_fall_into_parts_samples :
    (∃ image, BootImage.FallsIntoParts bootLayer.after image) ∧
    (∃ image, OtaImage.FallsIntoParts otaLayer.after image) ∧
    ∃ image, BootImage.FallsIntoParts (List.replicate 4096 0) image := by
  rcases images_fall_into_parts with ⟨htaken, -, hboot, hota⟩
  have hbootLayer : Stage.boot.Obtainable bootLayer.after :=
    (Layer.performed_layer (Stage.admits_boot _) _ _).obtainable
  have hotaLayer : Stage.ota.Obtainable otaLayer.after :=
    (Layer.performed_layer (Stage.admits_wrap_boot _ _ _) _ _).obtainable
  have hlength : Stage.boot.HasLength (List.replicate 4096 0) := by
    refine ⟨?_, ?_⟩
    · rw [List.length_replicate]
    · rw [List.length_replicate]
      decide
  have hzeros : Stage.boot.Obtainable (List.replicate 4096 0) :=
    .admitted ((htaken _ _ _).2 ⟨hlength, rfl⟩)
  exact ⟨hboot _ hbootLayer, hota _ hotaLayer, hboot _ hzeros⟩

end SecureBoot
