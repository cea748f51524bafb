import SecureBoot.Proofs.BlockFormat
import SecureBoot.Proofs.ImageParts

/-!
# KeyHash — the hash that identifies a key is that of the octets in the block

A chip keeps the hash of the key that it trusts, and compares it with the hash of the 776 octets
that the key has in a signature block.  The hash of a record is fed with the fields one by one; the
block is written by another function, and both go through the same octets
(`SignatureBlock.segment_key`).

`key_hash_read_back`: whatever a block holds and wherever it stands, the hash of the record that is
read from it is that of these octets.  Neither assembling a block anew nor signing with a key
changes what hash is read back.
-/

namespace SecureBoot

/-! ## In blocks -/

namespace SignatureBlock

theorem segment_key (block : SignatureBlock) :
    segment block.toBytes 36 776 = block.key.toOctets.toBytes := by
  -- Any block is one that has been read, and its record is a slice of what it was read from.
  have hread (data : Octets Layout.blockLength) :
      (ofOctets data).key.toOctets.toBytes = segment data.toBytes 36 776 :=
    congrArg Octets.toBytes (KeyRecord.toOctets_ofOctets _)
  have hblock := hread block.toOctets
  rw [ofOctets_toOctets] at hblock
  exact hblock.symm

theorem hash_key (block : SignatureBlock) :
    block.key.hash = Sha256.digest (segment block.toBytes 36 776) := by
  rw [segment_key, KeyRecord.hash_eq]

theorem segment_key_pack (digest : Digest) (key : KeyRecord) (signature : Signature) :
    segment (pack digest key signature).toBytes 36 776 = key.toOctets.toBytes := by
  rw [segment_key, key_pack]

end SignatureBlock

/-! ## In signed images -/

namespace Stage

/-- How far the block starts before the end of a signed image. -/
def blockFromEnd : Stage → Nat
  | boot => 4096
  | ota => 1216

/-- The octets that the key has in a signed image. -/
def keyOctets (stage : Stage) (signed : Bytes) : Bytes :=
  segment signed (signed.length - stage.blockFromEnd + 36) 776

theorem keyOctets_boot (image : BootImage) :
    boot.keyOctets image.toBytes = segment image.block.toBytes 36 776 := by
  rw [BootImage.block, SignatureBlock.toBytes_ofOctets, BootImage.toBytes_blockOctets,
    segment_segment image.toBytes (by decide)]
  rfl

theorem keyOctets_ota (image : OtaImage) :
    ota.keyOctets image.toBytes = segment image.block.toBytes 36 776 := by
  rw [OtaImage.block, SignatureBlock.toBytes_ofOctets, OtaImage.toBytes_blockOctets, segment,
    List.drop_drop]
  rfl

theorem exists_of_undo_boot {signed content : Bytes} {block : SignatureBlock}
    (h : boot.undo signed = .ok (content, block)) :
    ∃ image : BootImage, image.toBytes = signed ∧ image.block = block := by
  rw [undo] at h
  cases himage : BootImage.ofBytes signed with
  | error fault =>
      rw [himage] at h
      cases h
  | ok image =>
      rw [himage, ok_bind, SignatureBlock.parse_toBytes, ok_bind] at h
      have hopened : (image.payload, image.block) = (content, block) := Except.ok.inj h
      exact ⟨image, BootImage.toBytes_of_ofBytes himage, (Prod.mk.inj hopened).2⟩

theorem exists_of_undo_ota {signed content : Bytes} {block : SignatureBlock}
    (h : ota.undo signed = .ok (content, block)) :
    ∃ image : OtaImage, image.toBytes = signed ∧ image.block = block := by
  rw [undo] at h
  cases himage : OtaImage.ofBytes signed with
  | error fault =>
      rw [himage] at h
      cases h
  | ok image =>
      rw [himage, ok_bind, SignatureBlock.parse_toBytes, ok_bind] at h
      have hopened : (image.body, image.block) = (content, block) := Except.ok.inj h
      exact ⟨image, OtaImage.toBytes_of_ofBytes himage, (Prod.mk.inj hopened).2⟩

/-- Whatever stands in an image that can be taken apart, the hash of the record in its block is that
of the octets where the key stands. -/
theorem hash_key_of_undo {stage : Stage} {signed content : Bytes} {block : SignatureBlock}
    (h : stage.undo signed = .ok (content, block)) :
    block.key.hash = Sha256.digest (stage.keyOctets signed) := by
  cases stage with
  | boot =>
      rcases exists_of_undo_boot h with ⟨image, rfl, rfl⟩
      rw [keyOctets_boot, ← SignatureBlock.hash_key]
  | ota =>
      rcases exists_of_undo_ota h with ⟨image, rfl, rfl⟩
      rw [keyOctets_ota, ← SignatureBlock.hash_key]

/-- What an operation has made is taken apart again, and its block holds the key. -/
theorem exists_undo_of_run_sign {World σ : Type} {stage : Stage} {buffer signed : Bytes}
    {key : KeyRecord} {signer : Signer (StateM World) σ} {world world' : World}
    (h : (stage.sign buffer key signer).run world = (.ok signed, world')) :
    ∃ content block, stage.undo signed = .ok (content, block) ∧ block.key = key := by
  rcases exists_of_run_sign h with ⟨hadmits, signature, -, rfl⟩
  exact ⟨_, _, undo_wrap buffer key signature hadmits, rfl⟩

end Stage

/-- The hash of a key is that of the octets 36 to 811 of any block that is assembled with it, and
the record read from any 1216 octets has the hash of these octets.  So the hash read back is still
the same after a block has been assembled anew, and it is that of the key after a signing. -/
theorem key_hash_read_back :
    (∀ (key : KeyRecord) (digest : Digest) (signature : Signature),
      key.hash =
        Sha256.digest (segment (SignatureBlock.pack digest key signature).toBytes 36 776)) ∧
    (∀ data : Bytes, data.length = 1216 → ∃ block, SignatureBlock.parse data = .ok block ∧
      block.key.hash = Sha256.digest (segment data 36 776) ∧
      block.repack.key.hash = Sha256.digest (segment data 36 776) ∧
      segment block.repack.toBytes 36 776 = segment data 36 776) ∧
    ∀ (World σ : Type) (stage : Stage) (buffer signed : Bytes) (key : KeyRecord)
      (signer : Signer (StateM World) σ) (world world' : World),
      (stage.sign buffer key signer).run world = (.ok signed, world') →
      ∃ content block, stage.undo signed = .ok (content, block) ∧ block.key.hash = key.hash ∧
        key.hash = Sha256.digest (stage.keyOctets signed) := by
  refine ⟨?_, ?_, ?_⟩
  · intro key digest signature
    rw [SignatureBlock.segment_key_pack, KeyRecord.hash_eq]
  · intro data hlength
    rcases SignatureBlock.exists_toBytes_eq hlength with ⟨block, rfl⟩
    have hrepack : segment block.repack.toBytes 36 776 = segment block.toBytes 36 776 :=
      (SignatureBlock.segment_key_pack _ _ _).trans block.segment_key.symm
    refine ⟨block, SignatureBlock.parse_eq_ok_iff.2 rfl, block.hash_key, ?_, hrepack⟩
    rw [← hrepack, SignatureBlock.hash_key]
  · intro World σ stage buffer signed key signer world world' h
    rcases Stage.exists_undo_of_run_sign h with ⟨content, block, hundo, rfl⟩
    exact ⟨content, block, hundo, rfl, Stage.hash_key_of_undo hundo⟩

/-- Octets that count upwards, and an image signed for both stages with a record of zeros. -/
theorem key_hash_read_back_blankKey :
    (∃ block, SignatureBlock.parse ((List.range 1216).map UInt8.ofNat) = .ok block ∧
      block.key.hash =
        Sha256.digest (segment ((List.range 1216).map UInt8.ofNat) 36 776)) ∧
    (∃ content block, Stage.boot.undo bootLayer.after = .ok (content, block) ∧
      block.key.hash = KeyRecord.blank.hash) ∧
    ∃ content block, Stage.ota.undo otaLayer.after = .ok (content, block) ∧
      block.key.hash = KeyRecord.blank.hash ∧
      KeyRecord.blank.hash = Sha256.digest (Stage.ota.keyOctets otaLayer.after) := by
  rcases key_hash_read_back with ⟨-, hparse, hsign⟩
  have hcounting : ((List.range 1216).map UInt8.ofNat).length = 1216 := by
    rw [List.length_map, List.length_range]
  let signer : Signer (StateM Unit) Empty := Signer.presigned (Octets.fill 384 0)
  refine ⟨?_, ?_, ?_⟩
  · rcases hparse _ hcounting with ⟨block, hblock, hhash, -⟩
    exact ⟨block, hblock, hhash⟩
  · rcases hsign Unit Empty .boot [] bootLayer.after KeyRecord.blank signer () ()
      (Stage.run_sign (Stage.admits_boot []) _ rfl) with ⟨content, block, hundo, hhash, -⟩
    exact ⟨content, block, hundo, hhash⟩
  · exact hsign Unit Empty .ota bootLayer.after otaLayer.after KeyRecord.blank signer () ()
      (Stage.run_sign (Stage.admits_wrap_boot _ _ _) _ rfl)

end SecureBoot
