import SecureBoot.Proofs.Signing

/-!
# Verdicts — what the verdict on a signed image depends on

The `verdict` on an image is the outcome of its verification without the block that comes with
success.  Once a block is known to be valid, authentication reads nothing in it but its digest and
its signature, and nothing in the trusted key but its two numbers (`authenticate_of_valid`):

* `verdict_of_alike`: the key in the block, the Montgomery constants of either key and all octets
  without a meaning take no part.
* `stages_agree`: a block that is put behind the same content in both framings is accepted or
  refused in both, for the same reason.  Only the trusted keys keep the two stages apart.
-/

namespace SecureBoot

/-! ## Authentication -/

namespace SignatureBlock

theorem authenticate_of_valid {block : SignatureBlock} (h : block.validate = .ok ())
    (content : Bytes) (trusted : KeyRecord) :
    block.authenticate content trusted =
      (trusted.rsaKey >>= fun key =>
        block.verifyDigest (Sha256.digest content) key >>= fun _ => .ok block) := by
  unfold authenticate
  rw [h]
  rfl

theorem fault_of_validate {block : SignatureBlock} {fault : Fault Empty}
    (h : block.validate = .error fault) : fault.artifact = none ∧ fault.kind ≠ .key := by
  unfold validate at h
  split at h
  · cases h
    exact ⟨rfl, nofun⟩
  split at h
  · cases h
    exact ⟨rfl, nofun⟩
  split at h
  · cases h
    exact ⟨rfl, nofun⟩
  · cases h

theorem fault_of_verifyDigest {block : SignatureBlock} {digest : Digest} {key : Rsa.PublicKey}
    {fault : Fault Empty} (h : block.verifyDigest digest key = .error fault) :
    fault.artifact = none ∧ fault.kind ≠ .key := by
  unfold verifyDigest at h
  split at h
  · cases h
    exact ⟨rfl, nofun⟩
  split at h
  · cases h
  · cases h
    exact ⟨rfl, nofun⟩

/-- Only a rejected key is attributed before the image is named. -/
theorem fault_of_authenticate {block : SignatureBlock} {content : Bytes} {trusted : KeyRecord}
    {fault : Fault Empty} (h : block.authenticate content trusted = .error fault) :
    (fault.artifact = none ∧ fault.kind ≠ .key) ∨
      trusted.rsaKey = .error fault ∧ ∃ rejection, fault = Fault.ofKey (.rejected rejection) := by
  cases hvalid : block.validate with
  | error invalid =>
      -- An invalid block is refused before the trusted key is looked at.
      rw [authenticate, hvalid] at h
      cases h
      exact Or.inl (fault_of_validate hvalid)
  | ok =>
      rw [authenticate_of_valid hvalid] at h
      cases hkey : trusted.rsaKey with
      | error rejected =>
          rw [hkey] at h
          cases h
          exact Or.inr ⟨rfl, KeyRecord.fault_of_rsaKey hkey⟩
      | ok key =>
          rw [hkey, ok_bind] at h
          cases hdigest : block.verifyDigest (Sha256.digest content) key with
          | error refused =>
              rw [hdigest] at h
              cases h
              exact Or.inl (fault_of_verifyDigest hdigest)
          | ok =>
              rw [hdigest] at h
              cases h

end SignatureBlock

/-! ## Two images, two keys -/

/-- Success, or the fault with its reason and artifact. -/
def verdict {α : Type} (result : Checked α) : Checked Unit :=
  result.map fun _ => ()

theorem verdict_mapError {α : Type} (f : Fault Empty → Fault Empty) (result : Checked α) :
    verdict (result.mapError f) = (verdict result).mapError f := by
  cases result with
  | ok a => rfl
  | error fault => rfl

/-- Two valid blocks with the same digest and the same signature; all other fields are free. -/
structure SignatureBlock.Alike (a b : SignatureBlock) : Prop where
  valid_left : a.validate = .ok ()
  valid_right : b.validate = .ok ()
  digest_eq : a.digest = b.digest
  storedSignature_eq : a.storedSignature = b.storedSignature

/-- Two records with the same modulus and exponent; the Montgomery constants are free. -/
structure KeyRecord.Alike (a b : KeyRecord) : Prop where
  n_eq : a.n = b.n
  e_eq : a.e = b.e

theorem KeyRecord.Alike.rsaKey_eq {a b : KeyRecord} (h : a.Alike b) : a.rsaKey = b.rsaKey := by
  have hpublic : a.publicKey = b.publicKey := by
    unfold publicKey modulus exponent
    rw [h.n_eq, h.e_eq]
  unfold rsaKey
  rw [hpublic]

namespace SignatureBlock

theorem Alike.verifyDigest_eq {a b : SignatureBlock} (h : a.Alike b) (digest : Digest)
    (key : Rsa.PublicKey) : a.verifyDigest digest key = b.verifyDigest digest key := by
  unfold verifyDigest signature
  rw [h.digest_eq, h.storedSignature_eq]

theorem verdict_authenticate {block : SignatureBlock} (h : block.validate = .ok ())
    (content : Bytes) (trusted : KeyRecord) :
    verdict (block.authenticate content trusted) =
      (trusted.rsaKey >>= fun key => block.verifyDigest (Sha256.digest content) key) := by
  rw [authenticate_of_valid h]
  cases trusted.rsaKey with
  | error fault => rfl
  | ok key =>
      rw [ok_bind, ok_bind]
      cases block.verifyDigest (Sha256.digest content) key with
      | error fault => rfl
      | ok => rfl

theorem Alike.verdict_eq {a b : SignatureBlock} {trusted trusted' : KeyRecord} (h : a.Alike b)
    (hkey : trusted.Alike trusted') (content : Bytes) :
    verdict (a.authenticate content trusted) = verdict (b.authenticate content trusted') := by
  rw [verdict_authenticate h.valid_left, verdict_authenticate h.valid_right, hkey.rsaKey_eq]
  simp only [h.verifyDigest_eq]

end SignatureBlock

/-- Every valid block is alike with one that has any other key in it and anything in the octets
without a meaning. -/
theorem SignatureBlock.exists_alike {block : SignatureBlock} (h : block.validate = .ok ())
    (key : KeyRecord) (reserved : Octets 2) (padding : Octets 16) :
    ∃ other, block.Alike other ∧ other.key = key ∧ other.reserved = reserved ∧
      other.padding = padding := by
  rcases validate_eq_ok_iff.1 h with ⟨hmagic, hversion, -⟩
  refine ⟨withCrc { block with key := key, reserved := reserved, padding := padding }, ?_, rfl,
    rfl, rfl⟩
  exact {
    valid_left := h
    valid_right := validate_eq_ok_iff.2 ⟨hmagic, hversion, crc_withCrc _⟩
    digest_eq := rfl
    storedSignature_eq := rfl }

/-- A valid block for any content with any key in it, authenticated by the sample key. -/
theorem SignatureBlock.exists_sampleBlock (content : Bytes) (key : KeyRecord) :
    ∃ (trusted : KeyRecord) (block : SignatureBlock), block.validate = .ok () ∧
      block.key = key ∧ block.authenticate content trusted = .ok block := by
  rcases SigningKey.exists_sampleSignature (Sha256.digest content) with
    ⟨trusted, publicKey, signature, hkey, hsignature⟩
  exact ⟨trusted, pack (Sha256.digest content) key signature, validate_pack _ key signature, rfl,
    authenticate_pack_of_signature hkey hsignature⟩

/-- Images with the same content and alike blocks have one verdict under alike keys. -/
theorem verdict_of_alike :
    (∀ (a b : BootImage) (trusted trusted' : KeyRecord), a.payload = b.payload →
      a.block.Alike b.block → trusted.Alike trusted' →
      verdict (BootImage.verify a.toBytes trusted) =
        verdict (BootImage.verify b.toBytes trusted')) ∧
    ∀ (a b : OtaImage) (trusted trusted' : KeyRecord), a.body = b.body →
      Sha256.digest a.blockOctets.toBytes = a.blockHash →
      Sha256.digest b.blockOctets.toBytes = b.blockHash →
      a.block.Alike b.block → trusted.Alike trusted' →
      verdict (OtaImage.verify a.toBytes trusted) =
        verdict (OtaImage.verify b.toBytes trusted') := by
  refine ⟨?_, ?_⟩
  · intro a b trusted trusted' hpayload halike hkey
    rw [BootImage.verify_toBytes, BootImage.verify_toBytes, verdict_mapError, verdict_mapError,
      hpayload, halike.verdict_eq hkey]
  · intro a b trusted trusted' hbody hhash hhash' halike hkey
    rw [OtaImage.verify_toBytes a trusted hhash, OtaImage.verify_toBytes b trusted' hhash',
      verdict_mapError, verdict_mapError, hbody, halike.verdict_eq hkey]

/-- Signed sectors still verify with a foreign key in the block, other octets wherever they have no
meaning, and the Montgomery constants of the trusted key gone. -/
theorem verdict_of_alike_foreignKey :
    ∃ (a b : BootImage) (c d : OtaImage) (trusted trusted' : KeyRecord),
      a.block.key ≠ b.block.key ∧ c.block.key ≠ d.block.key ∧
      trusted'.rr = Octets.fill 384 0 ∧ trusted'.m = Octets.fill 4 0 ∧
      verdict (BootImage.verify a.toBytes trusted) = .ok () ∧
      verdict (BootImage.verify b.toBytes trusted') = .ok () ∧
      verdict (OtaImage.verify c.toBytes trusted) = .ok () ∧
      verdict (OtaImage.verify d.toBytes trusted') = .ok () := by
  let foreign : KeyRecord :=
    ⟨Octets.fill 384 1, Octets.fill 4 1, Octets.fill 384 1, Octets.fill 4 1⟩
  have hforeign : KeyRecord.blank ≠ foreign := by
    intro h
    exact absurd (congrArg KeyRecord.e h) (by decide)
  rcases SignatureBlock.exists_sampleBlock (Image.fill 4096) KeyRecord.blank with
    ⟨trusted, block, hvalid, hown, hauthentic⟩
  rcases SignatureBlock.exists_alike hvalid foreign (Octets.fill 2 0x55) (Octets.fill 16 0xaa) with
    ⟨other, halike, hother, -, -⟩
  have hsector : (Image.fill 4096).length % 4096 = 0 ∧ (Image.fill 4096).length ≠ 0 := by
    rw [Image.length_fill]
    decide
  have hzeros : (List.replicate 2880 (0 : UInt8)).length = 2880 := List.length_replicate
  rcases BootImage.exists_framed hsector.1 block (Image.length_fill 2880) with
    ⟨a, ha, hapayload, rfl⟩
  rcases BootImage.exists_framed hsector.1 other hzeros with ⟨b, -, hbpayload, rfl⟩
  rcases OtaImage.exists_framed hsector a.block with ⟨c, hc, hcbody, hcblock, hchash⟩
  rcases OtaImage.exists_framed hsector b.block with ⟨d, -, hdbody, hdblock, hdhash⟩
  let stripped : KeyRecord := { trusted with rr := Octets.fill 384 0, m := Octets.fill 4 0 }
  have hstripped : trusted.Alike stripped := ⟨rfl, rfl⟩
  have hboot : verdict (BootImage.verify a.toBytes trusted) = .ok () := by
    rw [ha, BootImage.verify_framed hsector.1 _ (Image.length_fill 2880), hauthentic]
    rfl
  have hota : verdict (OtaImage.verify c.toBytes trusted) = .ok () := by
    rw [hc, OtaImage.verify_framed hsector, hauthentic]
    rfl
  refine ⟨a, b, c, d, trusted, stripped, ?_, ?_, rfl, rfl, hboot, ?_, hota, ?_⟩
  · rw [hown, hother]
    exact hforeign
  · rw [hcblock, hdblock, hown, hother]
    exact hforeign
  · rw [← hboot]
    exact (verdict_of_alike.1 a b trusted stripped (hapayload.trans hbpayload.symm) halike
      hstripped).symm
  · rw [← hcblock, ← hdblock] at halike
    rw [← hota]
    exact (verdict_of_alike.2 c d trusted stripped (hcbody.trans hdbody.symm) hchash hdhash halike
      hstripped).symm

/-! ## Two stages -/

/-- Behind the same content, a block gets the same answer from both verifications: the block itself,
or one reason, attributed to the image or, if the trusted key is rejected, to the key. -/
theorem stages_agree {body data fill : Bytes}
    (hbody : body.length % 4096 = 0 ∧ body.length ≠ 0) (hdata : data.length = 1216)
    (hfill : fill.length = 2880) (trusted : KeyRecord) :
    (∃ block,
      BootImage.verify (body ++ data ++ fill) trusted = .ok block ∧
      OtaImage.verify (body ++ (Sha256.digest data).toBytes ++ data) trusted = .ok block) ∨
    (∃ reason : Reason Empty, reason.kind ≠ .key ∧
      BootImage.verify (body ++ data ++ fill) trusted = .error ⟨some .bootImage, reason⟩ ∧
      OtaImage.verify (body ++ (Sha256.digest data).toBytes ++ data) trusted =
        .error ⟨some .otaImage, reason⟩) ∨
    ∃ rejection, trusted.rsaKey = .error (Fault.ofKey (.rejected rejection)) ∧
      BootImage.verify (body ++ data ++ fill) trusted =
        .error ⟨some .key, .key (.rejected rejection)⟩ ∧
      OtaImage.verify (body ++ (Sha256.digest data).toBytes ++ data) trusted =
        .error ⟨some .key, .key (.rejected rejection)⟩ := by
  rcases SignatureBlock.exists_toBytes_eq hdata with ⟨block, rfl⟩
  rw [BootImage.verify_framed hbody.1 block hfill, OtaImage.verify_framed hbody block]
  cases hresult : block.authenticate body trusted with
  | ok accepted => exact Or.inl ⟨accepted, rfl, rfl⟩
  | error fault =>
      rcases SignatureBlock.fault_of_authenticate hresult with
        ⟨hnone, hkind⟩ | ⟨hkey, rejection, rfl⟩
      · rcases fault with ⟨artifact, reason⟩
        have hartifact : artifact = none := hnone
        subst hartifact
        exact Or.inr (Or.inl ⟨reason, hkind, rfl, rfl⟩)
      · exact Or.inr (Or.inr ⟨rejection, hkey, rfl, rfl⟩)

/-- A block that is accepted behind a sector of padding in one stage is accepted in the other. -/
theorem stages_agree_sampleKey :
    ∃ (trusted : KeyRecord) (block : SignatureBlock),
      BootImage.verify (Image.fill 4096 ++ block.toBytes ++ Image.fill 2880) trusted = .ok block ∧
      OtaImage.verify (Image.fill 4096 ++ (Sha256.digest block.toBytes).toBytes ++ block.toBytes)
        trusted = .ok block := by
  rcases SignatureBlock.exists_sampleBlock (Image.fill 4096) KeyRecord.blank with
    ⟨trusted, block, -, -, hauthentic⟩
  have hsector : (Image.fill 4096).length % 4096 = 0 ∧ (Image.fill 4096).length ≠ 0 := by
    rw [Image.length_fill]
    decide
  have hboot : BootImage.verify (Image.fill 4096 ++ block.toBytes ++ Image.fill 2880) trusted =
      .ok block := by
    rw [BootImage.verify_framed hsector.1 _ (Image.length_fill 2880), hauthentic]
    rfl
  refine ⟨trusted, block, hboot, ?_⟩
  rcases stages_agree hsector block.length_toBytes (Image.length_fill 2880) trusted with
    ⟨accepted, hfirst, hsecond⟩ | ⟨reason, -, hfirst, -⟩ | ⟨rejection, -, hfirst, -⟩
  · rw [hboot] at hfirst
    cases hfirst
    exact hsecond
  · rw [hboot] at hfirst
    cases hfirst
  · rw [hboot] at hfirst
    cases hfirst

end SecureBoot
