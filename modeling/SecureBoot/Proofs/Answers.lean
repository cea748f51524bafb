import SecureBoot.Proofs.Signing

/-!
# Answers — what a signed image is worth, whatever the signer answers

Signing does not look at the signature it is given.  If nothing is known about the signer, the
signed image still passes all checks of its verification but two, those of the trusted key and of
the signature (`signing_leaves_signature`).
-/

namespace SecureBoot

/-- A verification accepts a block exactly if the trusted key can be used and a signature over a
digest verifies under it; otherwise it rejects the key or refuses the signature. -/
structure LeftToSignature (artifact : Artifact) (digest : Digest) (signature : Signature)
    (trusted : KeyRecord) (block : SignatureBlock) (result : Checked SignatureBlock) : Prop where
  accepts_iff : result = .ok block ↔
    ∃ publicKey, trusted.rsaKey = .ok publicKey ∧
      Pss.verify publicKey digest signature.toBytes = true
  accepts_only : ∀ other, result = .ok other → other = block
  faults : ∀ fault, result = .error fault →
    (trusted.rsaKey = .error fault ∧
      ∃ rejection, fault = ⟨some .key, .key (.rejected rejection)⟩) ∨
    fault = ⟨some artifact, .signature⟩

theorem ofAnswer_eq_error_iff {σ Signed : Type} {artifact : Artifact}
    {assembled : Signature → Signed} {answer : Except σ Signature} {fault : Fault σ} :
    ofAnswer artifact assembled answer = .error fault ↔
      ∃ failure, answer = .error failure ∧ fault = ⟨some artifact, .signer failure⟩ := by
  cases answer with
  | ok signature =>
      refine ⟨nofun, ?_⟩
      rintro ⟨failure, hanswer, -⟩
      cases hanswer
  | error failure =>
      constructor
      · intro h
        cases h
        exact ⟨failure, rfl, rfl⟩
      · rintro ⟨other, hanswer, rfl⟩
        cases hanswer
        rfl

theorem leftToSignature_authenticate (artifact : Artifact) (content : Bytes)
    (key trusted : KeyRecord) (signature : Signature) :
    LeftToSignature artifact (Sha256.digest content) signature trusted
      (SignatureBlock.pack (Sha256.digest content) key signature)
      (((SignatureBlock.pack (Sha256.digest content) key signature).authenticate content
        trusted).mapError (Fault.on artifact)) := by
  rw [SignatureBlock.authenticate_pack]
  cases hkey : trusted.rsaKey with
  | error fault =>
      rcases KeyRecord.fault_of_rsaKey hkey with ⟨rejection, rfl⟩
      refine ⟨⟨nofun, ?_⟩, nofun, ?_⟩
      · rintro ⟨publicKey, hpublic, -⟩
        rw [hkey] at hpublic
        cases hpublic
      · intro fault hfault
        cases hfault
        exact Or.inl ⟨hkey, rejection, rfl⟩
  | ok publicKey =>
      rw [ok_bind]
      by_cases hsignature :
          Pss.verify publicKey (Sha256.digest content) signature.toBytes = true
      · rw [if_pos hsignature]
        refine ⟨⟨fun _ => ⟨publicKey, hkey, hsignature⟩, fun _ => rfl⟩, ?_, nofun⟩
        intro other hother
        cases hother
        rfl
      · rw [if_neg hsignature]
        refine ⟨⟨nofun, ?_⟩, nofun, ?_⟩
        · rintro ⟨other, hother, hverify⟩
          rw [hkey] at hother
          cases hother
          exact absurd hverify hsignature
        · intro fault hfault
          cases hfault
          exact Or.inr rfl

/-- Nothing but its signer makes a signing operation fail on an image of the right length, and
nothing but the trusted key and the signer's signature makes the signed image fail to verify. -/
theorem signing_leaves_signature {m : Type → Type} [Monad m] [LawfulMonad m] {σ : Type}
    (key : KeyRecord) (signer : Signer m σ) :
    (∀ image : Bytes, ∃ assembled : Signature → BootImage,
      BootImage.sign image key signer =
        ofAnswer .bootImage assembled <$> signer (Image.digestBoot image) ∧
      ∀ signature trusted,
        LeftToSignature .bootImage (Image.digestBoot image) signature trusted
          (assembled signature).block (BootImage.verify (assembled signature).toBytes trusted)) ∧
    (∀ body : Bytes, ¬(body.length % 4096 = 0 ∧ body.length ≠ 0) →
      OtaImage.sign body key signer =
        pure (.error ⟨some .bootImage, .imageLength body.length 0⟩)) ∧
    (∀ body : Bytes, body.length % 4096 = 0 ∧ body.length ≠ 0 →
      ∃ (digest : Digest) (assembled : Signature → OtaImage),
        Image.digestOtaBody body = .ok digest ∧
        OtaImage.sign body key signer = ofAnswer .otaImage assembled <$> signer digest ∧
        ∀ signature trusted,
          LeftToSignature .otaImage digest signature trusted
            (assembled signature).block (OtaImage.verify (assembled signature).toBytes trusted)) ∧
    ∀ (Signed : Type) (artifact : Artifact) (assembled : Signature → Signed)
      (answer : Except σ Signature) (fault : Fault σ),
      ofAnswer artifact assembled answer = .error fault ↔
        ∃ failure, answer = .error failure ∧ fault = ⟨some artifact, .signer failure⟩ := by
  refine ⟨?_, ?_, ?_, ?_⟩
  · intro image
    rw [Image.digestBoot_eq]
    refine ⟨_, BootImage.sign_eq_map image key signer, ?_⟩
    intro signature trusted
    rw [BootImage.verify_toBytes, BootImage.block_assemble, BootImage.payload_assemble]
    exact leftToSignature_authenticate .bootImage (Image.align image) key trusted signature
  · intro body hlength
    exact OtaImage.sign_of_length hlength key signer
  · intro body hlength
    rcases BootImage.exists_toBytes_eq hlength with ⟨boot, rfl⟩
    refine ⟨_, _, Image.digestOtaBody_toBytes boot,
      OtaImage.sign_eq_map boot.length_toBytes key signer, ?_⟩
    intro signature trusted
    rw [OtaImage.verify_toBytes _ trusted (OtaImage.digest_blockOctets_assemble _ key signature _),
      OtaImage.block_assemble, OtaImage.body_assemble]
    exact leftToSignature_authenticate .otaImage boot.toBytes key trusted signature
  · intro Signed artifact assembled answer fault
    exact ofAnswer_eq_error_iff

/-- A signer that has the right signature ready, one that cannot be reached, and a body that is too
short for either. -/
theorem signing_leaves_signature_sampleKey :
    ∃ (key : KeyRecord) (signature : Signature) (signed : BootImage),
      BootImage.sign [] key (Signer.presigned signature : Signer Id String) =
        pure (.ok signed) ∧
      BootImage.verify signed.toBytes key = .ok signed.block ∧
      OtaImage.sign [] key (Signer.presigned signature : Signer Id String) =
        pure (.error ⟨some .bootImage, .imageLength 0 0⟩) ∧
      OtaImage.sign signed.toBytes key (fun _ => pure (.error "offline") : Signer Id String) =
        pure (.error ⟨some .otaImage, .signer "offline"⟩) := by
  rcases SigningKey.exists_sampleSignature (Image.digestBoot []) with
    ⟨key, publicKey, signature, hkey, hsignature⟩
  rcases signing_leaves_signature key (Signer.presigned signature : Signer Id String) with
    ⟨hboot, hlength, -, -⟩
  rcases signing_leaves_signature key (fun _ => pure (.error "offline") : Signer Id String) with
    ⟨-, -, hota, -⟩
  rcases hboot [] with ⟨assembled, hsign, hverify⟩
  rcases hota (assembled signature).toBytes (assembled signature).whole_sectors with
    ⟨digest, wrapped, -, hoffline, -⟩
  refine ⟨key, signature, assembled signature, hsign, ?_, ?_, hoffline⟩
  · exact (hverify signature key).accepts_iff.2 ⟨publicKey, hkey, hsignature⟩
  · exact hlength [] (fun h => h.2 rfl)

end SecureBoot
