import SecureBoot.Proofs.Tampering

/-!
# Repacking — the blocks that assembly makes

Assembling a block from a digest, a key and a signature loses none of the three, so it is injective.
`Canonical` says which octet strings are assembled blocks: the valid ones with zeros wherever the
octets have no meaning.  Taking a block apart and assembling it anew keeps exactly these
(`repack_eq_self_iff`) and makes one of them of any other block.

Verification reads nothing that repacking changes: an accepted image with its block repacked is
accepted under the same key (`authenticate_repack`).
-/

namespace SecureBoot

namespace SignatureBlock

/-! ## Assembled blocks -/

/-- The octets of a valid block with zeros in all octets without a meaning. -/
structure Canonical (data : Bytes) : Prop extends Valid data where
  reserved : segment data 2 2 = List.replicate 2 0
  padding : segment data 1200 16 = List.replicate 16 0

theorem validate_eq_ok_iff_valid {block : SignatureBlock} :
    block.validate = .ok () ↔ Valid block.toBytes := by
  have hoctets := validate_ofOctets block.toOctets
  rw [ofOctets_toOctets] at hoctets
  rw [hoctets, outcome_eq_ok_iff, firstFault_validityFaults_eq_none_iff]
  exact and_iff_left rfl

theorem pack_injective :
    Function.Injective fun fields : Digest × KeyRecord × Signature =>
      pack fields.1 fields.2.1 fields.2.2 := by
  have hleft : Function.LeftInverse
      (fun block : SignatureBlock => (block.digest, block.key, block.signature))
      (fun fields : Digest × KeyRecord × Signature => pack fields.1 fields.2.1 fields.2.2) := by
    rintro ⟨digest, key, signature⟩
    simp only [digest_pack, key_pack, signature_pack]
  exact hleft.injective

/-! ## Repacking -/

theorem repack_pack (digest : Digest) (key : KeyRecord) (signature : Signature) :
    (pack digest key signature).repack = pack digest key signature := by
  rw [repack, digest_pack, key_pack, signature_pack]

theorem storedCrc_of_validate {block : SignatureBlock} (h : block.validate = .ok ()) :
    block.storedCrc = Octets.ofNat 4 block.computedCrc.toNat := by
  rw [← (validate_eq_ok_iff.1 h).2.2, toNat_crc, Octets.ofNat_toNat]

/-- A block is kept by repacking if it is valid and the octets without a meaning are zeros. -/
theorem repack_eq_self_iff {block : SignatureBlock} :
    block.repack = block ↔
      block.validate = .ok () ∧ block.reserved = Octets.fill 2 0 ∧
        block.padding = Octets.fill 16 0 := by
  constructor
  · intro h
    rw [← h]
    exact ⟨validate_pack block.digest block.key block.signature, rfl, rfl⟩
  · rintro ⟨hvalid, hreserved, hpadding⟩
    rcases validate_eq_ok_iff.1 hvalid with ⟨hmagic, hversion, -⟩
    have hstored : block.signature.reverse = block.storedSignature :=
      Octets.reverse_reverse block.storedSignature
    have hcrc := storedCrc_of_validate hvalid
    -- The checksum is over the other fields, and these are the same.
    cases block with
    | mk magic version reserved digest key storedSignature storedCrc padding =>
        simp only at hmagic hversion hreserved hpadding hstored hcrc
        subst hmagic hversion hreserved hpadding
        unfold repack pack withCrc
        simp only [hstored]
        rw [mk.injEq]
        exact ⟨rfl, rfl, rfl, rfl, rfl, rfl, hcrc.symm, rfl⟩

theorem repack_eq_self_iff_canonical {data : Bytes} {block : SignatureBlock}
    (h : parse data = .ok block) : block.repack = block ↔ Canonical data := by
  have hfields := fieldsAt_of_parse h
  have hbytes := parse_eq_ok_iff.1 h
  rw [repack_eq_self_iff, validate_eq_ok_iff_valid, hbytes]
  constructor
  · rintro ⟨hvalid, hreserved, hpadding⟩
    refine ⟨hvalid, ?_, ?_⟩
    · rw [hfields.reserved, hreserved]
      rfl
    · rw [hfields.padding, hpadding]
      rfl
  · rintro ⟨hvalid, hreserved, hpadding⟩
    rw [hfields.reserved] at hreserved
    rw [hfields.padding] at hpadding
    exact ⟨hvalid, Octets.ext hreserved, Octets.ext hpadding⟩

theorem alike_repack {block : SignatureBlock} (h : block.validate = .ok ()) :
    block.Alike block.repack where
  valid_left := h
  valid_right := validate_pack block.digest block.key block.signature
  digest_eq := rfl
  storedSignature_eq := (Octets.reverse_reverse block.storedSignature).symm

/-! ### In accepted images -/

/-- A block alike an authentic one is authentic. -/
theorem Alike.authenticate_eq_ok {block other : SignatureBlock} (h : block.Alike other)
    {content : Bytes} {trusted : KeyRecord}
    (hblock : block.authenticate content trusted = .ok block) :
    other.authenticate content trusted = .ok other := by
  rw [authenticate_of_valid h.valid_left] at hblock
  rw [authenticate_of_valid h.valid_right]
  cases hkey : trusted.rsaKey with
  | error fault =>
      rw [hkey] at hblock
      cases hblock
  | ok key =>
      rw [hkey, ok_bind] at hblock
      rw [ok_bind, ← h.verifyDigest_eq]
      cases hverify : block.verifyDigest (Sha256.digest content) key with
      | error fault =>
          rw [hverify] at hblock
          cases hblock
      | ok => rfl

theorem authenticate_of_authentic {block : SignatureBlock} {content : Bytes} {trusted : KeyRecord}
    (h : Authentic block.toBytes content trusted) :
    block.authenticate content trusted = .ok block := by
  -- The artifact is of no account, as there is no fault.
  have hmap : (block.authenticate content trusted).mapError (Fault.on .bootImage) = .ok block := by
    rw [mapError_authenticate_eq, outcome_eq_ok_iff]
    exact ⟨firstFault_blockFaults_eq_none_iff.2 h, rfl⟩
  cases hresult : block.authenticate content trusted with
  | error fault =>
      rw [hresult] at hmap
      cases hmap
  | ok found =>
      rw [hresult] at hmap
      exact hmap

theorem authenticate_repack {block : SignatureBlock} {content : Bytes} {trusted : KeyRecord}
    (h : Authentic block.toBytes content trusted) :
    block.repack.authenticate content trusted = .ok block.repack :=
  (alike_repack (validate_eq_ok_iff_valid.2 h.toValid)).authenticate_eq_ok
    (authenticate_of_authentic h)

/-! ## What assembly makes -/

/-- Assembly makes a valid block that gives the three parts back, and is injective.  Repacking keeps
exactly the canonical blocks, a second time it changes nothing, and in an accepted image it leaves
the image accepted; an OTA record gets the hash of the new block. -/
theorem pack_fixed_points :
    (∀ digest key signature,
      (pack digest key signature).validate = .ok () ∧
      (pack digest key signature).digest = digest ∧
      (pack digest key signature).key = key ∧
      (pack digest key signature).signature = signature ∧
      (pack digest key signature).reserved.toBytes = List.replicate 2 0 ∧
      (pack digest key signature).padding.toBytes = List.replicate 16 0) ∧
    (Function.Injective fun fields : Digest × KeyRecord × Signature =>
      pack fields.1 fields.2.1 fields.2.2) ∧
    (∀ data block, parse data = .ok block → (block.repack = block ↔ Canonical data)) ∧
    (∀ block : SignatureBlock, block.repack.repack = block.repack) ∧
    (∀ image trusted block, BootImage.verify image trusted = .ok block →
      ∃ front rest, image = front ++ block.toBytes ++ rest ∧ rest.length = 2880 ∧
        BootImage.verify (front ++ block.repack.toBytes ++ rest) trusted = .ok block.repack) ∧
    ∀ image trusted block, OtaImage.verify image trusted = .ok block →
      ∃ body, image = body ++ (Sha256.digest block.toBytes).toBytes ++ block.toBytes ∧
        OtaImage.verify
          (body ++ (Sha256.digest block.repack.toBytes).toBytes ++ block.repack.toBytes) trusted =
            .ok block.repack := by
  refine ⟨?_, pack_injective, ?_, ?_, ?_, ?_⟩
  · intro digest key signature
    exact ⟨validate_pack digest key signature, rfl, rfl, signature_pack digest key signature, rfl,
      rfl⟩
  · intro data block h
    exact repack_eq_self_iff_canonical h
  · intro block
    exact repack_pack block.digest block.key block.signature
  · intro image trusted block h
    rcases BootImage.exists_split h with ⟨front, rest, himage, hmod, hrest, hauthentic⟩
    refine ⟨front, rest, himage, hrest, ?_⟩
    rw [BootImage.verify_framed hmod block.repack hrest, authenticate_repack hauthentic]
    rfl
  · intro image trusted block h
    rcases OtaImage.exists_split h with ⟨body, himage, hbody, hauthentic⟩
    refine ⟨body, himage, ?_⟩
    rw [OtaImage.verify_framed hbody block.repack, authenticate_repack hauthentic]
    rfl

/-- A signed sector verifies with a block that is not canonical, in both framings, and still
verifies when the block is repacked, which makes another block of it. -/
theorem pack_fixed_points_sampleKey :
    ∃ (trusted : KeyRecord) (block : SignatureBlock), parse block.toBytes = .ok block ∧
      block.repack ≠ block ∧ ¬Canonical block.toBytes ∧ Canonical block.repack.toBytes ∧
      BootImage.verify (Image.fill 4096 ++ block.toBytes ++ Image.fill 2880) trusted = .ok block ∧
      BootImage.verify (Image.fill 4096 ++ block.repack.toBytes ++ Image.fill 2880) trusted =
        .ok block.repack ∧
      OtaImage.verify (Image.fill 4096 ++ (Sha256.digest block.toBytes).toBytes ++ block.toBytes)
        trusted = .ok block ∧
      OtaImage.verify (Image.fill 4096 ++ (Sha256.digest block.repack.toBytes).toBytes ++
        block.repack.toBytes) trusted = .ok block.repack := by
  rcases exists_sampleBlock (Image.fill 4096) KeyRecord.blank with
    ⟨trusted, valid, hvalid, -, hsigned⟩
  rcases exists_alike hvalid KeyRecord.blank (Octets.fill 2 1) (Octets.fill 16 1) with
    ⟨block, halike, -, hreserved, -⟩
  have hauthentic := halike.authenticate_eq_ok hsigned
  have hsector : (Image.fill 4096).length % 4096 = 0 ∧ (Image.fill 4096).length ≠ 0 := by
    rw [Image.length_fill]
    decide
  have hboot : BootImage.verify (Image.fill 4096 ++ block.toBytes ++ Image.fill 2880) trusted =
      .ok block := by
    rw [BootImage.verify_framed hsector.1 block (Image.length_fill 2880), hauthentic]
    rfl
  have hota : OtaImage.verify
      (Image.fill 4096 ++ (Sha256.digest block.toBytes).toBytes ++ block.toBytes) trusted =
      .ok block := by
    rw [OtaImage.verify_framed hsector block, hauthentic]
    rfl
  have hparse : parse block.toBytes = .ok block := parse_eq_ok_iff.2 rfl
  have hother : block.repack ≠ block := by
    intro hsame
    have hzeros : Octets.fill 2 0 = Octets.fill 2 1 :=
      (congrArg SignatureBlock.reserved hsame).trans hreserved
    revert hzeros
    decide
  rcases pack_fixed_points with ⟨-, -, hfixed, hagain, hrepacked, hrepacked'⟩
  rcases hrepacked _ trusted block hboot with ⟨front, rest, himage, hrest, hverify⟩
  rcases hrepacked' _ trusted block hota with ⟨body, himage', hverify'⟩
  -- The lengths leave one way only to take the images apart.
  rcases List.append_inj' himage (by rw [Image.length_fill, hrest]) with ⟨hfront, rfl⟩
  cases List.append_cancel_right hfront
  cases List.append_cancel_right (List.append_cancel_right himage')
  refine ⟨trusted, block, hparse, hother, mt (hfixed _ block hparse).2 hother, ?_, hboot, hverify,
    hota, hverify'⟩
  exact (hfixed _ block.repack (parse_eq_ok_iff.2 rfl)).1 (hagain block)

end SignatureBlock

end SecureBoot
