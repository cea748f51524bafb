import SecureBoot.Proofs.KeyCreation
import SecureBoot.Proofs.Pss
import SecureBoot.Proofs.Verification

/-!
# Signing — signed images verify

Each stage of signing computes a digest, asks the signer once and turns the answer into a result, a
signed image if the answer is a signature (`BootImage.sign_eq_map`, `OtaImage.sign_eq_map`).
Verification takes the frame off again and is left with the block and the content that it stands for
(`SignatureBlock.authenticate`), so both stages verify as soon as the signature does.

`sign_then_verify` puts this together for a signer with a private key.
-/

namespace SecureBoot

variable {m : Type → Type} [Monad m]

/-! ## Signatures with a private key -/

namespace SigningKey

theorem exists_ofPrivateKey {key : Rsa.PrivateKey} (h : key.Usable) :
    ∃ signing, ofPrivateKey key = .ok signing ∧ signing.key = key := by
  refine ⟨⟨key, h.bitLength_eq⟩, ?_, rfl⟩
  rw [ofPrivateKey, dif_pos h.bitLength_eq]

theorem signer_pure [LawfulMonad m] (key : SigningKey) (salt : Salt) (digest : Digest) :
    key.signer (pure salt : m Salt) digest = pure (key.sign salt digest) := by
  rw [signer, pure_bind]

theorem exists_signature {key : SigningKey} (h : key.key.Usable) (salt : Salt) (digest : Digest) :
    ∃ signature, key.sign salt digest = .ok signature ∧
      Pss.verify key.key.toPublicKey digest signature.toBytes = true := by
  have hbits : Pss.encodingBits key.key.toPublicKey = 3071 := by
    rw [Pss.encodingBits, h.bitLength_eq]
  have hsize : key.key.size = Layout.keyLength := by
    rw [Rsa.PublicKey.size, h.bitLength_eq]
    rfl
  have hlong : 521 ≤ Pss.encodingBits key.key.toPublicKey := by
    rw [hbits]
    decide
  have hsign := Pss.sign_eq_ok h.toWellFormed digest salt hlong
  have hverify := Pss.verify_apply h.toWellFormed digest salt hlong
  rw [hsize, ← Octets.toBytes_ofNatBig] at hverify
  -- From here on it does not matter which number the power is.
  generalize key.key.apply _ = power at hsign hverify
  refine ⟨Octets.ofNatBig Layout.keyLength power, ?_, hverify⟩
  rw [sign, hsign, Except.map]

end SigningKey

/-- The record of a usable key gives the key back. -/
theorem KeyRecord.exists_rsaKey {key : Rsa.PrivateKey} (h : key.Usable) :
    ∃ record, create key.toPublicKey = .ok record ∧ record.rsaKey = .ok key.toPublicKey := by
  have hcreate : ∃ record, create key.toPublicKey = .ok record ∧
      record.publicKey = key.toPublicKey :=
    exists_create ⟨h.bitLength_eq, h.exponent_lt, h.modulus_odd⟩
  rcases hcreate with ⟨record, hrecord, hpublic⟩
  refine ⟨record, hrecord, ?_⟩
  rw [rsaKey, hpublic, h.check]

/-- An assembled block leaves only the trusted key and the signature to be checked. -/
theorem SignatureBlock.authenticate_pack (content : Bytes) (key trusted : KeyRecord)
    (signature : Signature) :
    (pack (Sha256.digest content) key signature).authenticate content trusted =
      (trusted.rsaKey >>= fun publicKey =>
        if Pss.verify publicKey (Sha256.digest content) signature.toBytes then
          .ok (pack (Sha256.digest content) key signature)
        else .error (Fault.of .signature)) := by
  rw [authenticate, validate_pack, ok_bind]
  cases trusted.rsaKey with
  | error fault => rfl
  | ok publicKey =>
      rw [ok_bind, ok_bind, verifyDigest, digest_pack, signature_pack, if_neg (not_not_intro rfl)]
      by_cases hsignature :
          Pss.verify publicKey (Sha256.digest content) signature.toBytes = true
      · rw [if_pos hsignature, if_pos hsignature]
        rfl
      · rw [if_neg hsignature, if_neg hsignature]
        rfl

theorem SignatureBlock.authenticate_pack_of_signature {content : Bytes} {key trusted : KeyRecord}
    {publicKey : Rsa.PublicKey} {signature : Signature} (hkey : trusted.rsaKey = .ok publicKey)
    (hsignature : Pss.verify publicKey (Sha256.digest content) signature.toBytes = true) :
    (pack (Sha256.digest content) key signature).authenticate content trusted =
      .ok (pack (Sha256.digest content) key signature) := by
  rw [authenticate_pack, hkey, ok_bind, if_pos hsignature]

/-- The sample key signs any digest. -/
theorem SigningKey.exists_sampleSignature (digest : Digest) :
    ∃ (record : KeyRecord) (publicKey : Rsa.PublicKey) (signature : Signature),
      record.rsaKey = .ok publicKey ∧ Pss.verify publicKey digest signature.toBytes = true := by
  rcases KeyRecord.exists_rsaKey Rsa.usable_sampleKey with ⟨record, -, hrecord⟩
  rcases exists_ofPrivateKey Rsa.usable_sampleKey with ⟨key, -, hkey⟩
  have husable : key.key.Usable := hkey ▸ Rsa.usable_sampleKey
  rcases exists_signature husable (Octets.fill 32 0) digest with ⟨signature, -, hsignature⟩
  rw [← hkey] at hrecord
  exact ⟨record, _, signature, hrecord, hsignature⟩

/-! ## Answers -/

/-- What an operation that signs makes of the signer's answer: the signed image that the signature
makes, or the failure of the signer. -/
def ofAnswer {σ Signed : Type} (artifact : Artifact) (assembled : Signature → Signed) :
    Except σ Signature → Except (Fault σ) Signed
  | .ok signature => .ok (assembled signature)
  | .error failure => .error ⟨some artifact, .signer failure⟩

/-! ## Boot-signed images -/

namespace BootImage

section Assembly

variable (image : Bytes) (digest : Digest) (key : KeyRecord) (signature : Signature)

theorem toBytes_assemble :
    (assemble image digest key signature).toBytes =
      Image.align image ++ (SignatureBlock.pack digest key signature).toBytes ++ sectorFill := rfl

theorem block_assemble :
    (assemble image digest key signature).block = SignatureBlock.pack digest key signature :=
  block_of_toBytes (toBytes_assemble image digest key signature) (Image.length_fill _)

theorem payload_assemble :
    (assemble image digest key signature).payload = Image.align image :=
  payload_of_toBytes (toBytes_assemble image digest key signature) (Image.length_fill _)

end Assembly

theorem sign_eq_map [LawfulMonad m] {σ : Type} (image : Bytes) (key : KeyRecord)
    (signer : Signer m σ) :
    sign image key signer =
      ofAnswer .bootImage (assemble image (Sha256.digest (Image.align image)) key) <$>
        signer (Sha256.digest (Image.align image)) := by
  unfold sign
  rw [map_eq_pure_bind]
  refine bind_congr fun answer => ?_
  cases answer with
  | ok signature => rfl
  | error failure => rfl

theorem sign_of_signature [LawfulMonad m] {σ : Type} {image : Bytes} {key : KeyRecord}
    {signer : Signer m σ} {signature : Signature}
    (h : signer (Sha256.digest (Image.align image)) = pure (.ok signature)) :
    sign image key signer =
      pure (.ok (assemble image (Sha256.digest (Image.align image)) key signature)) := by
  rw [sign_eq_map, h, map_pure]
  rfl

theorem verify_assemble {image : Bytes} {key trusted : KeyRecord} {publicKey : Rsa.PublicKey}
    {signature : Signature} (hkey : trusted.rsaKey = .ok publicKey)
    (hsignature :
      Pss.verify publicKey (Sha256.digest (Image.align image)) signature.toBytes = true) :
    verify (assemble image (Sha256.digest (Image.align image)) key signature).toBytes trusted =
      .ok (assemble image (Sha256.digest (Image.align image)) key signature).block := by
  rw [verify_toBytes, block_assemble, payload_assemble,
    SignatureBlock.authenticate_pack_of_signature hkey hsignature]
  rfl

/-- A key signs every image, and the signed image verifies under the key's record. -/
theorem exists_signed [LawfulMonad m] {key : SigningKey} {record : KeyRecord}
    (h : key.key.Usable) (hrecord : record.rsaKey = .ok key.key.toPublicKey) (image : Bytes)
    (salt : Salt) :
    ∃ signed, sign image record (key.signer (pure salt : m Salt)) = pure (.ok signed) ∧
      verify signed.toBytes record = .ok signed.block := by
  rcases SigningKey.exists_signature h salt (Sha256.digest (Image.align image)) with
    ⟨signature, hsign, hverify⟩
  refine ⟨_, sign_of_signature ?_, verify_assemble hrecord hverify⟩
  rw [SigningKey.signer_pure, hsign]

end BootImage

/-! ## OTA-signed images -/

/-- A boot-signed image is a body that can be signed. -/
theorem BootImage.length_toBytes (image : BootImage) :
    image.toBytes.length % Layout.sectorLength = 0 ∧ Layout.sectorLength ≤ image.toBytes.length :=
  ⟨image.length_mod, image.le_length⟩

theorem BootImage.whole_sectors (image : BootImage) :
    image.toBytes.length % 4096 = 0 ∧ image.toBytes.length ≠ 0 :=
  ⟨image.length_mod, Nat.ne_of_gt (Nat.lt_of_lt_of_le (by decide) image.le_length)⟩

namespace Image

theorem requireLength_of_whole {body : Bytes}
    (h : body.length % Layout.sectorLength = 0 ∧ Layout.sectorLength ≤ body.length) :
    requireLength body 0 .bootImage = .ok () := by
  unfold requireLength
  rw [if_neg]
  omega

theorem requireLength_of_length {body : Bytes} (h : ¬(body.length % 4096 = 0 ∧ body.length ≠ 0)) :
    requireLength body 0 .bootImage =
      .error ⟨some .bootImage, .imageLength body.length 0⟩ := by
  unfold requireLength Layout.sectorLength
  rw [if_pos]
  · rfl
  · omega

theorem digestOtaBody_toBytes (body : BootImage) :
    digestOtaBody body.toBytes = .ok (Sha256.digest body.toBytes) := by
  unfold digestOtaBody
  rw [requireLength_of_whole body.length_toBytes]
  rfl

end Image

namespace OtaImage

section Assembly

variable {body : Bytes} (digest : Digest) (key : KeyRecord) (signature : Signature)
  (hbody : body.length % Layout.sectorLength = 0 ∧ Layout.sectorLength ≤ body.length)

theorem toBytes_assemble :
    (assemble body digest key signature hbody).toBytes =
      body ++ (Sha256.digest (SignatureBlock.pack digest key signature).toBytes).toBytes ++
        (SignatureBlock.pack digest key signature).toBytes := rfl

theorem blockOctets_assemble :
    (assemble body digest key signature hbody).blockOctets =
      (SignatureBlock.pack digest key signature).toOctets :=
  blockOctets_of_toBytes (toBytes_assemble digest key signature hbody)

theorem block_assemble :
    (assemble body digest key signature hbody).block =
      SignatureBlock.pack digest key signature :=
  block_of_toBytes (toBytes_assemble digest key signature hbody)

theorem body_assemble : (assemble body digest key signature hbody).body = body :=
  body_of_toBytes (toBytes_assemble digest key signature hbody) (Octets.length_toBytes _)

/-- The hash in front of an assembled block is the block's. -/
theorem digest_blockOctets_assemble :
    Sha256.digest (assemble body digest key signature hbody).blockOctets.toBytes =
      (assemble body digest key signature hbody).blockHash := by
  apply Octets.ext
  rw [toBytes_blockHash_of_toBytes (toBytes_assemble digest key signature hbody)
    (Octets.length_toBytes _), blockOctets_assemble]
  rfl

end Assembly

variable {body : Bytes}

theorem sign_eq_map [LawfulMonad m] {σ : Type}
    (hbody : body.length % Layout.sectorLength = 0 ∧ Layout.sectorLength ≤ body.length)
    (key : KeyRecord) (signer : Signer m σ) :
    sign body key signer =
      ofAnswer .otaImage
          (fun signature => assemble body (Sha256.digest body) key signature hbody) <$>
        signer (Sha256.digest body) := by
  -- The length is checked before the signer is asked.
  unfold sign
  split
  · rename_i fault hlength
    rw [Image.requireLength_of_whole hbody] at hlength
    cases hlength
  · rw [map_eq_pure_bind]
    refine bind_congr fun answer => ?_
    cases answer with
    | ok signature => rfl
    | error failure => rfl

/-- The signer is not asked for a body of another length. -/
theorem sign_of_length {σ : Type} (hbody : ¬(body.length % 4096 = 0 ∧ body.length ≠ 0))
    (key : KeyRecord) (signer : Signer m σ) :
    sign body key signer = pure (.error ⟨some .bootImage, .imageLength body.length 0⟩) := by
  unfold sign
  split
  · rename_i fault hlength
    rw [Image.requireLength_of_length hbody] at hlength
    cases hlength
    rfl
  · rename_i hlength
    rw [Image.requireLength_of_length hbody] at hlength
    cases hlength

theorem sign_of_signature [LawfulMonad m] {σ : Type} {key : KeyRecord} {signer : Signer m σ}
    {signature : Signature}
    (hbody : body.length % Layout.sectorLength = 0 ∧ Layout.sectorLength ≤ body.length)
    (h : signer (Sha256.digest body) = pure (.ok signature)) :
    sign body key signer =
      pure (.ok (assemble body (Sha256.digest body) key signature hbody)) := by
  rw [sign_eq_map hbody, h, map_pure]
  rfl

theorem verify_assemble {key trusted : KeyRecord} {publicKey : Rsa.PublicKey}
    {signature : Signature}
    (hbody : body.length % Layout.sectorLength = 0 ∧ Layout.sectorLength ≤ body.length)
    (hkey : trusted.rsaKey = .ok publicKey)
    (hsignature : Pss.verify publicKey (Sha256.digest body) signature.toBytes = true) :
    verify (assemble body (Sha256.digest body) key signature hbody).toBytes trusted =
      .ok (assemble body (Sha256.digest body) key signature hbody).block := by
  rw [verify_toBytes _ trusted (digest_blockOctets_assemble _ key signature hbody),
    block_assemble, body_assemble, SignatureBlock.authenticate_pack_of_signature hkey hsignature]
  rfl

/-- A key signs every body of the right length, and the signed image verifies under the key's
record and contains the body. -/
theorem exists_signed [LawfulMonad m] {key : SigningKey} {record : KeyRecord}
    (h : key.key.Usable) (hrecord : record.rsaKey = .ok key.key.toPublicKey)
    (hbody : body.length % Layout.sectorLength = 0 ∧ Layout.sectorLength ≤ body.length)
    (salt : Salt) :
    ∃ signed, sign body record (key.signer (pure salt : m Salt)) = pure (.ok signed) ∧
      verify signed.toBytes record = .ok signed.block ∧ signed.body = body := by
  rcases SigningKey.exists_signature h salt (Sha256.digest body) with ⟨signature, hsign, hverify⟩
  refine ⟨_, sign_of_signature hbody ?_, verify_assemble hbody hrecord hverify,
    body_assemble _ record signature hbody⟩
  rw [SigningKey.signer_pure, hsign]

end OtaImage

/-! ## Both stages -/

/-- Two keys sign an image in two stages.  All steps succeed for every image and all salts, each
stage verifies under its own key, and the second stage contains the first, which still verifies. -/
theorem sign_then_verify [LawfulMonad m] {bootPrivate otaPrivate : Rsa.PrivateKey}
    (hboot : bootPrivate.Usable) (hota : otaPrivate.Usable) :
    ∃ bootKey bootRecord otaKey otaRecord,
      SigningKey.ofPrivateKey bootPrivate = .ok bootKey ∧
      KeyRecord.create bootPrivate.toPublicKey = .ok bootRecord ∧
      SigningKey.ofPrivateKey otaPrivate = .ok otaKey ∧
      KeyRecord.create otaPrivate.toPublicKey = .ok otaRecord ∧
      ∀ (image : Bytes) (bootSalt otaSalt : Salt), ∃ signed wrapped,
        BootImage.sign image bootRecord (bootKey.signer (pure bootSalt : m Salt)) =
          pure (.ok signed) ∧
        BootImage.verify signed.toBytes bootRecord = .ok signed.block ∧
        OtaImage.sign signed.toBytes otaRecord (otaKey.signer (pure otaSalt : m Salt)) =
          pure (.ok wrapped) ∧
        OtaImage.verify wrapped.toBytes otaRecord = .ok wrapped.block ∧
        wrapped.body = signed.toBytes ∧
        BootImage.verify wrapped.body bootRecord = .ok signed.block := by
  rcases SigningKey.exists_ofPrivateKey hboot with ⟨bootKey, hbootSigner, rfl⟩
  rcases SigningKey.exists_ofPrivateKey hota with ⟨otaKey, hotaSigner, rfl⟩
  rcases KeyRecord.exists_rsaKey hboot with ⟨bootRecord, hbootCreate, hbootKey⟩
  rcases KeyRecord.exists_rsaKey hota with ⟨otaRecord, hotaCreate, hotaKey⟩
  refine ⟨bootKey, bootRecord, otaKey, otaRecord, hbootSigner, hbootCreate, hotaSigner,
    hotaCreate, ?_⟩
  intro image bootSalt otaSalt
  rcases BootImage.exists_signed (m := m) hboot hbootKey image bootSalt with
    ⟨signed, hsign, hverify⟩
  -- What the first stage has built is what the second one signs.
  rcases OtaImage.exists_signed (m := m) hota hotaKey signed.length_toBytes otaSalt with
    ⟨wrapped, hwrap, hwrapped, hbody⟩
  refine ⟨signed, wrapped, hsign, hverify, hwrap, hwrapped, hbody, ?_⟩
  rw [hbody]
  exact hverify

/-- The sample key in both stages, with salts of zeros. -/
theorem sign_then_verify_sampleKey :
    ∃ key record signed wrapped,
      SigningKey.ofPrivateKey Rsa.sampleKey = .ok key ∧
      KeyRecord.create Rsa.sampleKey.toPublicKey = .ok record ∧
      BootImage.sign [] record (key.signer (pure (Octets.fill 32 0) : Id Salt)) =
        pure (.ok signed) ∧
      BootImage.verify signed.toBytes record = .ok signed.block ∧
      OtaImage.sign signed.toBytes record (key.signer (pure (Octets.fill 32 0) : Id Salt)) =
        pure (.ok wrapped) ∧
      OtaImage.verify wrapped.toBytes record = .ok wrapped.block := by
  rcases sign_then_verify (m := Id) Rsa.usable_sampleKey Rsa.usable_sampleKey with
    ⟨bootKey, bootRecord, otaKey, otaRecord, hbootKey, hbootCreate, hotaKey, hotaCreate, hrun⟩
  rcases hrun [] (Octets.fill 32 0) (Octets.fill 32 0) with
    ⟨signed, wrapped, hsign, hverify, hwrap, hwrapped, -, -⟩
  -- Both stages load one key.
  have hkey : otaKey = bootKey := Except.ok.inj (hotaKey.symm.trans hbootKey)
  have hrecord : otaRecord = bootRecord := Except.ok.inj (hotaCreate.symm.trans hbootCreate)
  rw [hkey, hrecord] at hwrap
  rw [hrecord] at hwrapped
  exact ⟨bootKey, bootRecord, signed, wrapped, hbootKey, hbootCreate, hsign, hverify, hwrap,
    hwrapped⟩

end SecureBoot
