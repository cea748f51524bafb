import SecureBoot.Proofs.BlockFormat
import SecureBoot.Proofs.Verdicts

/-!
# Tampering — what is reported when an accepted image was changed

An accepted image is signed content with a block behind it.  There are two ways to make the digest
in the block and the digest of the content differ, and both are reported as what they are, in both
framings (`tampering_classified`):

* other content of the same length is accepted if it has the same digest, and is refused because of
  the digest otherwise;
* another digest in the block is refused because of the digest if the checksum of the block is made
  to fit again, and because of the checksum or the digest if it is left alone.
-/

namespace SecureBoot

/-! ## Overwriting -/

/-- A string with other octets from a position on. -/
def overwrite (bs : Bytes) (start : Nat) (new : Bytes) : Bytes :=
  bs.take start ++ new ++ bs.drop (start + new.length)

section Overwrite

variable {bs new : Bytes} {start : Nat} (h : start + new.length ≤ bs.length)

include h

theorem length_overwrite : (overwrite bs start new).length = bs.length := by
  simp only [overwrite, List.length_append, List.length_take, List.length_drop]
  omega

theorem segment_overwrite : segment (overwrite bs start new) start new.length = new := by
  have hlen : (bs.take start).length = start := List.length_take_of_le (by omega)
  have hsegment := segment_append (bs.take start) (bs.drop (start + new.length))
    (rfl : new.length = new.length)
  rw [hlen] at hsegment
  exact hsegment

theorem take_overwrite {count : Nat} (hcount : count ≤ start) :
    (overwrite bs start new).take count = bs.take count := by
  have hlen : count ≤ (bs.take start).length := by
    rw [List.length_take]
    omega
  rw [overwrite, List.append_assoc, List.take_append_of_le_length hlen, List.take_take,
    Nat.min_eq_left hcount]

theorem getElem?_overwrite {i : Nat} (hi : i < start) : (overwrite bs start new)[i]? = bs[i]? := by
  rw [← List.getElem?_take_of_lt hi, take_overwrite h (Nat.le_refl start),
    List.getElem?_take_of_lt hi]

theorem segment_overwrite_of_le {first len : Nat} (hle : first + len ≤ start) :
    segment (overwrite bs start new) first len = segment bs first len := by
  -- Both end the same prefix, which the new octets stand behind.
  have htake := take_overwrite h hle
  rw [take_add_segment, take_add_segment, take_overwrite h (by omega)] at htake
  exact List.append_cancel_left htake

theorem segment_overwrite_of_ge {first len : Nat} (hge : start + new.length ≤ first) :
    segment (overwrite bs start new) first len = segment bs first len := by
  have hlen : (bs.take start ++ new).length = start + new.length := by
    rw [List.length_append, List.length_take_of_le (by omega)]
  -- Counted from the end of the new octets, the position is the same in both.
  have hfirst : first = start + new.length + (first - (start + new.length)) := by omega
  rw [segment, segment, overwrite, hfirst, ← List.drop_drop, ← hlen, List.drop_left, List.drop_drop]

end Overwrite

/-! ## Blocks -/

namespace SignatureBlock

/-- The octets of a block with another digest in it. -/
def withDigest (data : Bytes) (digest : Digest) : Bytes :=
  overwrite data 4 digest.toBytes

/-- The octets of a block with its checksum made to fit. -/
def withChecksum (data : Bytes) : Bytes :=
  overwrite data 1196 (littleEndianBytes 4 (Crc32.checksum (data.take 1196)).toNat)

section Changed

variable {data : Bytes} (hlen : data.length = 1216) (digest : Digest)

include hlen

theorem le_length_of_digest : 4 + digest.toBytes.length ≤ data.length := by
  rw [digest.length_toBytes, hlen]
  decide

theorem le_length_of_checksum (word : Nat) :
    1196 + (littleEndianBytes 4 word).length ≤ data.length := by
  rw [length_littleEndianBytes, hlen]
  decide

theorem length_withDigest : (withDigest data digest).length = 1216 := by
  rw [withDigest, length_overwrite (le_length_of_digest hlen digest), hlen]

theorem segment_withDigest : segment (withDigest data digest) 4 32 = digest.toBytes := by
  have hsegment := segment_overwrite (le_length_of_digest hlen digest)
  rw [digest.length_toBytes] at hsegment
  exact hsegment

/-- The checksum does not change with the digest. -/
theorem segment_crc_withDigest :
    segment (withDigest data digest) 1196 4 = segment data 1196 4 := by
  apply segment_overwrite_of_ge (le_length_of_digest hlen digest)
  rw [digest.length_toBytes]
  decide

theorem length_withChecksum : (withChecksum data).length = 1216 := by
  rw [withChecksum, length_overwrite (le_length_of_checksum hlen _), hlen]

theorem segment_digest_withChecksum : segment (withChecksum data) 4 32 = segment data 4 32 :=
  segment_overwrite_of_le (le_length_of_checksum hlen _) (by decide)

theorem valid_withChecksum (hmagic : data[0]? = some 0xe7) (hversion : data[1]? = some 0x02) :
    Valid (withChecksum data) where
  magic := (getElem?_overwrite (le_length_of_checksum hlen _) (by decide)).trans hmagic
  version := (getElem?_overwrite (le_length_of_checksum hlen _) (by decide)).trans hversion
  crc := by
    have hstored := segment_overwrite
      (le_length_of_checksum hlen (Crc32.checksum (data.take 1196)).toNat)
    have hhead : (withChecksum data).take 1196 = data.take 1196 :=
      take_overwrite (le_length_of_checksum hlen _) (Nat.le_refl 1196)
    have hlt : (Crc32.checksum (data.take 1196)).toNat < 256 ^ 4 := UInt32.toNat_lt _
    rw [length_littleEndianBytes] at hstored
    rw [hhead, withChecksum, hstored, littleEndian_littleEndianBytes, Nat.mod_eq_of_lt hlt]

end Changed

/-! ## Faults -/

section Faults

variable {artifact : Artifact} {data content : Bytes} {trusted : KeyRecord}

theorem firstFault_of_digest_ne (hvalid : Valid data) (hkey : trusted.publicKey.check = .ok ())
    (hdigest : segment data 4 32 ≠ (Sha256.digest content).toBytes) :
    firstFault (blockFaults artifact data content trusted) = some ⟨some artifact, .digest⟩ := by
  have hfound := keyFault_eq_none_iff.2 hkey
  rw [blockFaults, firstFault_append_of_none (firstFault_validityFaults_eq_none_iff.2 hvalid),
    hfound, signatureFaults, faultUnless, if_neg hdigest]
  rfl

theorem firstFault_of_crc_ne (hmagic : data[0]? = some 0xe7) (hversion : data[1]? = some 0x02)
    {stored computed : UInt32}
    (hstored : UInt32.ofNat (littleEndian (segment data 1196 4)) = stored)
    (hcomputed : Crc32.checksum (data.take 1196) = computed) (hcrc : stored ≠ computed) :
    firstFault (blockFaults artifact data content trusted) =
      some ⟨some artifact, .crc stored computed⟩ := by
  have hfirst : data.getD 0 0 = 0xe7 := (getD_eq_iff_getElem? (by decide)).2 hmagic
  have hsecond : data.getD 1 0 = 0x02 := (getD_eq_iff_getElem? (by decide)).2 hversion
  apply firstFault_append_of_some
  simp only [validityFaults, faultUnless, if_pos hfirst, if_pos hsecond, hstored, hcomputed,
    if_neg hcrc]
  rfl

end Faults

end SignatureBlock

open SignatureBlock

namespace Authentic

variable {artifact : Artifact} {data content : Bytes} {trusted : KeyRecord}
  (h : Authentic data content trusted)

include h

/-! ### Other content -/

theorem of_digest_eq {content' : Bytes} (hdigest : Sha256.digest content' = Sha256.digest content) :
    Authentic data content' trusted where
  toValid := h.toValid
  key := h.key
  digest := hdigest ▸ h.digest
  signature := hdigest ▸ h.signature

theorem firstFault_of_digest_ne {content' : Bytes}
    (hdigest : Sha256.digest content' ≠ Sha256.digest content) :
    firstFault (blockFaults artifact data content' trusted) = some ⟨some artifact, .digest⟩ := by
  apply SignatureBlock.firstFault_of_digest_ne h.toValid h.key
  rw [h.digest]
  intro hsame
  exact hdigest (Octets.ext hsame).symm

/-! ### Another digest -/

section Digest

variable (hlen : data.length = 1216) {digest : Digest}
  (hdigest : digest.toBytes ≠ segment data 4 32)

include hlen

theorem magic_withDigest : (withDigest data digest)[0]? = some 0xe7 :=
  (getElem?_overwrite (le_length_of_digest hlen digest) (by decide)).trans h.magic

theorem version_withDigest : (withDigest data digest)[1]? = some 0x02 :=
  (getElem?_overwrite (le_length_of_digest hlen digest) (by decide)).trans h.version

include hdigest

theorem segment_withDigest_ne :
    segment (withDigest data digest) 4 32 ≠ (Sha256.digest content).toBytes := by
  rw [segment_withDigest hlen digest, ← h.digest]
  exact hdigest

theorem firstFault_withChecksum :
    firstFault (blockFaults artifact (withChecksum (withDigest data digest)) content trusted) =
      some ⟨some artifact, .digest⟩ := by
  have hchanged := length_withDigest hlen digest
  have hvalid := valid_withChecksum hchanged (h.magic_withDigest hlen) (h.version_withDigest hlen)
  apply SignatureBlock.firstFault_of_digest_ne hvalid h.key
  rw [segment_digest_withChecksum hchanged]
  exact h.segment_withDigest_ne hlen hdigest

/-- If the checksum happens to fit the other digest too, the digest is still found. -/
theorem firstFault_withDigest {stored : UInt32}
    (hstored : littleEndian (segment data 1196 4) = stored.toNat) :
    firstFault (blockFaults artifact (withDigest data digest) content trusted) =
      some ⟨some artifact,
        if stored = Crc32.checksum ((withDigest data digest).take 1196) then .digest
        else .crc stored (Crc32.checksum ((withDigest data digest).take 1196))⟩ := by
  rw [← segment_crc_withDigest hlen digest] at hstored
  split
  · rename_i hcrc
    have hvalid : Valid (withDigest data digest) :=
      ⟨h.magic_withDigest hlen, h.version_withDigest hlen, hcrc ▸ hstored⟩
    exact SignatureBlock.firstFault_of_digest_ne hvalid h.key
      (h.segment_withDigest_ne hlen hdigest)
  · rename_i hcrc
    apply firstFault_of_crc_ne (h.magic_withDigest hlen) (h.version_withDigest hlen) ?_ rfl hcrc
    rw [hstored, UInt32.ofNat_toNat]

end Digest

end Authentic

/-! ## Images -/

/-- What is reported when the content in front of an accepted block, or the digest in the block, was
replaced.  `verify` verifies an image that is framed from content and block. -/
structure TamperingReported (artifact : Artifact)
    (verify : Bytes → Bytes → Checked SignatureBlock) (content : Bytes) (block : SignatureBlock) :
    Prop where
  /-- Other content of the same length. -/
  content_replaced : ∀ content' : Bytes, content'.length = content.length →
    verify content' block.toBytes =
      if Sha256.digest content' = Sha256.digest content then .ok block
      else .error ⟨some artifact, .digest⟩
  /-- Another digest in the block, with the checksum made to fit. -/
  digest_replaced : ∀ digest : Digest, digest ≠ block.digest →
    verify content (withChecksum (withDigest block.toBytes digest)) =
      .error ⟨some artifact, .digest⟩
  /-- Another digest in the block, with the checksum left alone. -/
  digest_replaced_only : ∀ digest : Digest, digest ≠ block.digest →
    let computed := Crc32.checksum ((withDigest block.toBytes digest).take 1196)
    verify content (withDigest block.toBytes digest) =
      .error ⟨some artifact,
        if block.crc = computed then .digest else .crc block.crc computed⟩

/-- An accepted block, in any framing that leaves the verification to the checks of the block. -/
theorem Authentic.tamperingReported {artifact : Artifact}
    {verify : Bytes → Bytes → Checked SignatureBlock} {content : Bytes} {trusted : KeyRecord}
    {block : SignatureBlock} (h : Authentic block.toBytes content trusted)
    (hverify : ∀ content' block', content'.length = content.length →
      verify content' (toBytes block') =
        outcome (blockFaults artifact block'.toBytes content' trusted) block') :
    TamperingReported artifact verify content block := by
  have hlen : block.toBytes.length = 1216 := block.length_toBytes
  have hfields : FieldsAt block.toBytes block := fieldsAt_of_parse (parse_eq_ok_iff.2 rfl)
  -- Any 1216 octets are those of a block.
  have hrefused (data : Bytes) (hdata : data.length = 1216) (fault : Fault Empty)
      (hfault : firstFault (blockFaults artifact data content trusted) = some fault) :
      verify content data = .error fault := by
    rcases exists_toBytes_eq hdata with ⟨other, rfl⟩
    rw [hverify content other rfl, outcome_eq_error_iff]
    exact hfault
  have hoctets (digest : Digest) (hdigest : digest ≠ block.digest) :
      digest.toBytes ≠ segment block.toBytes 4 32 := by
    rw [hfields.digest]
    intro hsame
    exact hdigest (Octets.ext hsame)
  refine ⟨?_, ?_, ?_⟩
  · intro content' hlength
    rw [hverify content' block hlength]
    split
    · rename_i hsame
      rw [outcome_eq_ok_iff, firstFault_blockFaults_eq_none_iff]
      exact ⟨h.of_digest_eq hsame, rfl⟩
    · rename_i hdifferent
      rw [outcome_eq_error_iff]
      exact h.firstFault_of_digest_ne hdifferent
  · intro digest hdigest
    exact hrefused _ (length_withChecksum (length_withDigest hlen digest)) _
      (h.firstFault_withChecksum hlen (hoctets digest hdigest))
  · intro digest hdigest computed
    exact hrefused _ (length_withDigest hlen digest) _
      (h.firstFault_withDigest hlen (hoctets digest hdigest) hfields.crc)

namespace BootImage

/-- A genuine image is content, its block and the rest of a sector. -/
theorem exists_split {image : Bytes} {trusted : KeyRecord} {block : SignatureBlock}
    (h : verify image trusted = .ok block) :
    ∃ front rest, image = front ++ block.toBytes ++ rest ∧ front.length % 4096 = 0 ∧
      rest.length = 2880 ∧ Authentic block.toBytes front trusted := by
  rcases verify_eq_ok_iff.1 h with ⟨hgenuine, hblock⟩
  have hmod := hgenuine.whole_sectors
  have hne := hgenuine.nonempty
  refine ⟨image.take (image.length - 4096), (image.drop (image.length - 4096)).drop 1216, ?_, ?_,
    ?_, hblock ▸ hgenuine.authentic⟩
  · rw [hblock, segment, List.append_assoc, List.take_append_drop, List.take_append_drop]
  · rw [List.length_take]
    omega
  · rw [List.length_drop, List.length_drop]
    omega

end BootImage

namespace OtaImage

/-- A genuine image is content, the hash of its block, and the block. -/
theorem exists_split {image : Bytes} {trusted : KeyRecord} {block : SignatureBlock}
    (h : verify image trusted = .ok block) :
    ∃ body, image = body ++ (Sha256.digest block.toBytes).toBytes ++ block.toBytes ∧
      (body.length % 4096 = 0 ∧ body.length ≠ 0) ∧ Authentic block.toBytes body trusted := by
  rcases verify_eq_ok_iff.1 h with ⟨hgenuine, hblock⟩
  have hle := hgenuine.le_length
  have hlen : image.length - 1216 = image.length - 1248 + 32 := by omega
  have hdrop : image.drop (image.length - 1216) = (image.drop (image.length - 1248)).drop 32 := by
    rw [hlen, List.drop_drop]
  refine ⟨image.take (image.length - 1248), ?_, take_length_mod hgenuine.length_mod hle,
    hblock ▸ hgenuine.authentic⟩
  rw [hblock, ← hgenuine.block_hash, hdrop, segment, List.append_assoc, List.take_append_drop,
    List.take_append_drop]

end OtaImage

/-- Every change of the content or of the digest in an accepted image is reported as such, in both
framings; an OTA record gets the hash of the changed block. -/
theorem tampering_classified (trusted : KeyRecord) (block : SignatureBlock) :
    (∀ image, BootImage.verify image trusted = .ok block →
      ∃ front rest, image = front ++ block.toBytes ++ rest ∧ rest.length = 2880 ∧
        TamperingReported .bootImage
          (fun content data => BootImage.verify (content ++ data ++ rest) trusted) front block) ∧
    (∀ image, OtaImage.verify image trusted = .ok block →
      ∃ body, image = body ++ (Sha256.digest block.toBytes).toBytes ++ block.toBytes ∧
        TamperingReported .otaImage
          (fun content data =>
            OtaImage.verify (content ++ (Sha256.digest data).toBytes ++ data) trusted)
          body block) ∧
    ∀ artifact, (⟨some artifact, .digest⟩ : Fault Empty).kind = .authentication := by
  refine ⟨?_, ?_, fun _ => rfl⟩
  · intro image h
    rcases BootImage.exists_split h with ⟨front, rest, himage, hmod, hrest, hauthentic⟩
    refine ⟨front, rest, himage, hrest, hauthentic.tamperingReported ?_⟩
    intro content' block' hlength
    rw [BootImage.verify_framed (hlength ▸ hmod) block' hrest, mapError_authenticate_eq]
  · intro image h
    rcases OtaImage.exists_split h with ⟨body, himage, hbody, hauthentic⟩
    refine ⟨body, himage, hauthentic.tamperingReported ?_⟩
    intro content' block' hlength
    rw [OtaImage.verify_framed (hlength ▸ hbody) block', mapError_authenticate_eq]

/-- A signed sector of padding, in both framings, with another digest in the block and with a sector
of zeros in its place. -/
theorem tampering_classified_sampleKey :
    ∃ (trusted : KeyRecord) (block : SignatureBlock) (digest : Digest), digest ≠ block.digest ∧
      BootImage.verify (Image.fill 4096 ++ block.toBytes ++ Image.fill 2880) trusted = .ok block ∧
      BootImage.verify (Image.fill 4096 ++ withChecksum (withDigest block.toBytes digest) ++
        Image.fill 2880) trusted = .error ⟨some .bootImage, .digest⟩ ∧
      OtaImage.verify (Image.fill 4096 ++ (Sha256.digest block.toBytes).toBytes ++ block.toBytes)
        trusted = .ok block ∧
      OtaImage.verify (List.replicate 4096 0 ++ (Sha256.digest block.toBytes).toBytes ++
          block.toBytes) trusted =
        if Sha256.digest (List.replicate 4096 0) = Sha256.digest (Image.fill 4096) then .ok block
        else .error ⟨some .otaImage, .digest⟩ := by
  rcases SignatureBlock.exists_sampleBlock (Image.fill 4096) KeyRecord.blank with
    ⟨trusted, block, -, -, hauthentic⟩
  have hsector : (Image.fill 4096).length % 4096 = 0 ∧ (Image.fill 4096).length ≠ 0 := by
    rw [Image.length_fill]
    decide
  have hzeros : (List.replicate 4096 (0 : UInt8)).length = (Image.fill 4096).length := by
    rw [List.length_replicate, Image.length_fill]
  have hdigest : ∃ digest : Digest, digest ≠ block.digest := by
    by_cases hzero : Octets.fill 32 0 = block.digest
    · exact ⟨Octets.fill 32 1, hzero ▸ by decide⟩
    · exact ⟨Octets.fill 32 0, hzero⟩
  rcases hdigest with ⟨digest, hne⟩
  have hboot : BootImage.verify (Image.fill 4096 ++ block.toBytes ++ Image.fill 2880) trusted =
      .ok block := by
    rw [BootImage.verify_framed hsector.1 block (Image.length_fill 2880), hauthentic]
    rfl
  have hota : OtaImage.verify
      (Image.fill 4096 ++ (Sha256.digest block.toBytes).toBytes ++ block.toBytes) trusted =
      .ok block := by
    rw [OtaImage.verify_framed hsector block, hauthentic]
    rfl
  rcases tampering_classified trusted block with ⟨hclassified, hclassified', -⟩
  rcases hclassified _ hboot with ⟨front, rest, himage, hrest, hreported⟩
  rcases hclassified' _ hota with ⟨body, himage', hreported'⟩
  -- The lengths leave one way only to take the images apart.
  rcases List.append_inj' himage (by rw [Image.length_fill, hrest]) with ⟨hfront, rfl⟩
  cases List.append_cancel_right hfront
  cases List.append_cancel_right (List.append_cancel_right himage')
  exact ⟨trusted, block, digest, hne, hboot, hreported.digest_replaced digest hne, hota,
    hreported'.content_replaced _ hzeros⟩

end SecureBoot
