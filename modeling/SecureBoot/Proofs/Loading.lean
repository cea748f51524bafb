import SecureBoot.Command.Loading
import SecureBoot.Proofs.OutsideSigning
import SecureBoot.Proofs.Session

/-!
# Loading — which keys and signatures a command has loaded

Loading is reading files and decoding what is in them.  Here it is said in terms of the files which
key a certificate holds (`Files.CertificateKey`), which record a private key has
(`Files.PrivateKeyRecord`), and which key verifies what a signing source signs
(`SigningSource.KeyIs`).
-/

namespace SecureBoot

open SecureBoot.Action

namespace Files

/-- A certificate or a file with a public key holds this key. -/
def CertificateKey (files : Files) (certificate : String) (key : KeyRecord) : Prop :=
  ∃ data, files.contentOf certificate = .ok data ∧
    KeyRecord.load (KeyFormat.detect data) data = .ok key

/-- A certificate holds one key. -/
theorem CertificateKey.unique {files : Files} {certificate : String} {key key' : KeyRecord}
    (h : files.CertificateKey certificate key) (h' : files.CertificateKey certificate key') :
    key = key' := by
  rcases h with ⟨data, hdata, hkey⟩
  rcases h' with ⟨data', hdata', hkey'⟩
  cases hdata.symm.trans hdata'
  exact Except.ok.inj (hkey.symm.trans hkey')

/-- A file holds a private key with this record of its public key. -/
def PrivateKeyRecord (files : Files) (source : KeySource) (record : KeyRecord) : Prop :=
  ∃ data key, files.contentOf source.path = .ok data ∧ source.decode data = .ok key ∧
    KeyRecord.create key.toPublicKey = .ok record

/-- The key under which images are verified: that of a certificate, or of the private key if there
is no certificate. -/
def TrustedKey (files : Files) (certificate : Option String) (source : KeySource)
    (key : KeyRecord) : Prop :=
  match certificate with
  | some path => files.CertificateKey path key
  | none => files.PrivateKeyRecord source key

theorem trustedKey_getD {files : Files} {certificate : Option String} {source : KeySource}
    {trusted : Option KeyRecord} {record : KeyRecord}
    (h : Option.Rel files.CertificateKey certificate trusted)
    (hrecord : files.PrivateKeyRecord source record) :
    files.TrustedKey certificate source (trusted.getD record) := by
  cases h with
  | some hkey => exact hkey
  | none => exact hrecord

end Files

/-- The key that verifies what the source signs: that of the private key, and if there is a
certificate, also that of the certificate. -/
def SigningSource.KeyIs (source : SigningSource) (files : Files) (key : KeyRecord) : Prop :=
  match source with
  | privateKey source certificate =>
    files.PrivateKeyRecord source key ∧ ∀ path ∈ certificate, files.CertificateKey path key
  | presigned _ certificate => files.CertificateKey certificate key

/-- If the source is a file with a signature, it is this signature. -/
def SigningSource.Allows (source : SigningSource) (files : Files) (signature : Signature) : Prop :=
  ∀ path certificate, source = .presigned path certificate →
    files.contentOf path = .ok signature.toBytes

/-- If the material is a signature, it is this one. -/
def SigningMaterial.Gives (material : SigningMaterial) (signature : Signature) : Prop :=
  ∀ presigned, material = .presigned presigned → signature = presigned

/-! ## Certificates, images and private keys -/

theorem KeyRecord.load_of_rsaKey {format : KeyFormat} {data : Bytes} {publicKey : Rsa.PublicKey}
    (h : format.rsaKey data = .ok publicKey) : load format data = create publicKey := by
  rw [load, h]
  rfl

/-- A file with the public key of the sample key. -/
def sampleCertificate : Bytes :=
  Pem.encode KeyFormat.rsaPublicKeyLabel Rsa.sampleKey.toPublicKey.toPkcs1

theorem rsaKey_sampleCertificate :
    (KeyFormat.detect sampleCertificate).rsaKey sampleCertificate =
      .ok Rsa.sampleKey.toPublicKey := by
  decide +kernel

theorem load_sampleCertificate {key : KeyRecord}
    (h : KeyRecord.create Rsa.sampleKey.toPublicKey = .ok key) :
    KeyRecord.load (KeyFormat.detect sampleCertificate) sampleCertificate = .ok key :=
  (KeyRecord.load_of_rsaKey rsaKey_sampleCertificate).trans h

namespace Action

theorem finds_loadCertificate (certificate : String) :
    (loadCertificate certificate : Action Session KeyRecord).Finds
      fun files key => files.CertificateKey certificate key := by
  refine ((finds_locate certificate).bind fun path =>
    (finds_ask (Session.finds_readFile path) _).bind fun data =>
      (finds_ofResult (KeyRecord.load (KeyFormat.detect data) data) _).bind fun key =>
        (finds_say _).bind fun _ => Finds.pure key).mono ?_
  rintro files found ⟨path, rfl, data, hdata, key, hkey, -, -, rfl⟩
  exact ⟨data, hdata.symm, hkey⟩

theorem finds_loadImage (image : String) :
    (loadImage image : Action Session Bytes).Finds
      fun files data => files.contentOf image = .ok data := by
  refine ((finds_locate image).bind fun path =>
    finds_ask (Session.finds_readFile path) _).mono ?_
  rintro files data ⟨path, rfl, hdata⟩
  exact hdata.symm

theorem gives_loadCertificate {files : Files} {certificate : String} {key : KeyRecord}
    (h : files.CertificateKey certificate key) :
    (loadCertificate certificate : Action Session KeyRecord).Gives files key := by
  rcases h with ⟨data, hdata, hkey⟩
  exact (gives_locate certificate files).bind <|
    (gives_ask (Session.gives_readFile hdata) _).bind <|
      (gives_ofResult hkey _ files).bind <| (gives_say _ files).bind <| Gives.pure key files

theorem gives_loadImage {files : Files} {image : String} {data : Bytes}
    (h : files.contentOf image = .ok data) :
    (loadImage image : Action Session Bytes).Gives files data :=
  (gives_locate image files).bind <| gives_ask (Session.gives_readFile h) _

theorem finds_makeRecord (key : Rsa.PrivateKey) (failure : Fault Empty → Failure) :
    (makeRecord key failure : Action Session KeyRecord).Finds
      fun _ record => KeyRecord.create key.toPublicKey = .ok record := by
  refine ((finds_ofResult (KeyRecord.create key.toPublicKey) _).bind fun record =>
    (finds_say _).bind fun _ => Finds.pure record).mono ?_
  rintro files found ⟨record, hrecord, -, -, rfl⟩
  exact hrecord

theorem gives_makeRecord {key : Rsa.PrivateKey} {record : KeyRecord}
    (h : KeyRecord.create key.toPublicKey = .ok record) (failure : Fault Empty → Failure)
    (files : Files) : (makeRecord key failure : Action Session KeyRecord).Gives files record :=
  (gives_ofResult h _ files).bind <| (gives_say _ files).bind <| Gives.pure record files

end Action

theorem KeySource.finds_load (source : KeySource) :
    (source.load : Action Session Rsa.PrivateKey).Finds
      fun files key => ∃ data, files.contentOf source.path = .ok data ∧
        source.decode data = .ok key := by
  refine ((finds_locate source.path).bind fun path =>
    (finds_say _).bind fun _ =>
      (finds_ask (Session.finds_readFile path) _).bind fun data =>
        (finds_ofResult (source.decode data) _).bind fun key =>
          (finds_say _).bind fun _ => Finds.pure key).mono ?_
  rintro files found ⟨path, rfl, -, -, data, hdata, key, hkey, -, -, rfl⟩
  exact ⟨data, hdata.symm, hkey⟩

theorem KeySource.gives_load (source : KeySource) {files : Files} {data : Bytes}
    {key : Rsa.PrivateKey} (hdata : files.contentOf source.path = .ok data)
    (hkey : source.decode data = .ok key) :
    (source.load : Action Session Rsa.PrivateKey).Gives files key :=
  (gives_locate source.path files).bind <| (gives_say _ files).bind <|
    (gives_ask (Session.gives_readFile hdata) _).bind <| (gives_ofResult hkey id files).bind <|
      (gives_say _ files).bind <| Gives.pure key files

/-! ## Signing material -/

namespace SigningMaterial

theorem finds_ofPrivateKey (stage : Option Stage) (key : Rsa.PrivateKey) :
    (ofPrivateKey stage key : Action Session _).Finds
      fun _ found => KeyRecord.create key.toPublicKey = .ok found.2 ∧
        ∃ signing, found.1 = privateKey signing := by
  refine ((finds_makeRecord key _).bind fun record =>
    (finds_ofResult (SigningKey.ofPrivateKey key) _).bind fun signing =>
      Finds.pure (privateKey signing, record)).mono ?_
  rintro files found ⟨record, hrecord, signing, -, rfl⟩
  exact ⟨hrecord, signing, rfl⟩

theorem finds_loadSignature (signature : String) :
    (loadSignature signature : Action Session SigningMaterial).Finds
      fun files material => ∃ data found, files.contentOf signature = .ok data ∧
        Signature.ofBytes data = .ok found ∧ material = presigned found := by
  refine ((finds_locate signature).bind fun path =>
    (finds_ask (Session.finds_readFile path) _).bind fun data =>
      (finds_ofResult (Signature.ofBytes data) _).bind fun found =>
        Finds.pure (presigned found)).mono ?_
  rintro files material ⟨path, rfl, data, hdata, found, hfound, rfl⟩
  exact ⟨data, found, hdata.symm, hfound, rfl⟩

/-- Drawing a salt is all that signing does on the host. -/
theorem finds_signer (material : SigningMaterial) (digest : Digest) :
    Session.Finds (material.signer digest) fun _ answer =>
      ∀ signature, answer = .ok signature → material.Gives signature := by
  cases material with
  | privateKey key =>
      refine (Session.finds_drawSalt.bind fun salt =>
        Session.Finds.pure (key.sign salt digest)).mono ?_
      intro files answer _ signature _ presigned hpresigned
      cases hpresigned
  | presigned signature =>
      refine (Session.Finds.pure (Except.ok signature)).mono ?_
      rintro files answer rfl found hfound presigned hpresigned
      cases hfound
      cases hpresigned
      rfl

/-- A usable private key signs any digest, whatever salt is drawn. -/
theorem finds_signer_privateKey {key : SigningKey} (h : key.key.Usable)
    (digest : Digest) :
    Session.Finds ((privateKey key).signer digest) fun _ answer => ∃ signature : Signature,
      answer = .ok signature ∧
        Pss.verify key.key.toPublicKey digest signature.toBytes = true := by
  refine (Session.finds_drawSalt.bind fun salt =>
    Session.Finds.pure (key.sign salt digest)).mono ?_
  rintro files answer ⟨salt, -, rfl⟩
  exact SigningKey.exists_signature h salt digest

theorem gives_ofPrivateKey {key : Rsa.PrivateKey} {record : KeyRecord}
    {signing : SigningKey} (hrecord : KeyRecord.create key.toPublicKey = .ok record)
    (hsigning : SigningKey.ofPrivateKey key = .ok signing) (stage : Option Stage) (files : Files) :
    (ofPrivateKey stage key : Action Session (SigningMaterial × KeyRecord)).Gives files
      (privateKey signing, record) :=
  (gives_makeRecord hrecord _ files).bind <| (gives_ofResult hsigning _ files).bind <|
    Gives.pure _ files

end SigningMaterial

namespace SigningSource

/-- If there is a certificate, its key is loaded. -/
theorem finds_certificate (certificate : Option String) :
    (certificate.mapM loadCertificate : Action Session (Option KeyRecord)).Finds
      fun files trusted => Option.Rel files.CertificateKey certificate trusted := by
  cases certificate with
  | none =>
      refine (Finds.pure none).mono ?_
      rintro files trusted rfl
      exact .none
  | some path =>
      refine ((finds_loadCertificate path).bind fun key => Finds.pure (some key)).mono ?_
      rintro files trusted ⟨key, hkey, rfl⟩
      exact .some hkey

/-- A certificate of another key does not pass. -/
theorem finds_match (trusted : Option KeyRecord) (found : SigningMaterial × KeyRecord) :
    (do
      let (material, record) := found
      match trusted with
      | some trusted => if trusted ≠ record then throw .certificateMismatch
      | none => pure ()
      return (material, record) : Action Session (SigningMaterial × KeyRecord)).Finds
      fun _ result => result = found ∧ ∀ key, trusted = some key → key = found.2 := by
  rcases found with ⟨material, record⟩
  cases trusted with
  | none =>
      refine (Finds.pure (material, record)).mono ?_
      rintro files result rfl
      exact ⟨rfl, nofun⟩
  | some key =>
      dsimp only
      by_cases hkey : key = record
      · rw [if_neg (not_not_intro hkey)]
        refine (Finds.pure (material, record)).mono ?_
        rintro files result rfl
        exact ⟨rfl, fun other hother => Option.some.inj hother ▸ hkey⟩
      · rw [if_pos hkey]
        refine ((Finds.throw .certificateMismatch).bind fun _ =>
          Finds.pure (material, record)).mono ?_
        rintro files result ⟨-, hfalse, -⟩
        exact hfalse.elim

theorem finds_load (source : SigningSource) :
    (source.load : Action Session (SigningMaterial × KeyRecord)).Finds
      fun files found => source.KeyIs files found.2 ∧
        ∀ signature, found.1.Gives signature → source.Allows files signature := by
  cases source with
  | privateKey key certificate =>
      refine ((finds_certificate certificate).bind fun trusted =>
        key.finds_load.bind fun loaded =>
          (SigningMaterial.finds_ofPrivateKey none loaded).bind fun found =>
            finds_match trusted found).mono ?_
      rintro files result ⟨trusted, htrusted, loaded, ⟨data, hdata, hloaded⟩, found,
        ⟨hrecord, -⟩, rfl, hmatch⟩
      refine ⟨⟨⟨data, loaded, hdata, hloaded, hrecord⟩, ?_⟩, ?_⟩
      · rintro path hpath
        cases hpath
        cases htrusted with
        | @some _ key hcertificate =>
            rw [← hmatch key rfl]
            exact hcertificate
      · intro signature _ path certificate hsource
        cases hsource
  | presigned signature certificate =>
      refine ((finds_loadCertificate certificate).bind fun trusted =>
        (SigningMaterial.finds_loadSignature signature).bind fun material =>
          Finds.pure (material, trusted)).mono ?_
      rintro files found ⟨trusted, htrusted, material, ⟨data, raw, hdata, hraw, rfl⟩, rfl⟩
      refine ⟨htrusted, ?_⟩
      rintro given hgiven path other hsource
      cases hsource
      rw [hgiven raw rfl, hdata, Signature.ofBytes_eq_ok_iff.1 hraw]

theorem gives_load_presigned {files : Files} {path certificate : String} {key : KeyRecord}
    {signature : Signature} (hkey : files.CertificateKey certificate key)
    (hsignature : files.contentOf path = .ok signature.toBytes) :
    ((presigned path certificate).load :
      Action Session (SigningMaterial × KeyRecord)).Gives files (.presigned signature, key) := by
  have hload : (SigningMaterial.loadSignature path : Action Session SigningMaterial).Gives files
      (.presigned signature) :=
    (gives_locate path files).bind <| (gives_ask (Session.gives_readFile hsignature) _).bind <|
      (gives_ofResult (Signature.ofBytes_toBytes signature) _ files).bind <| Gives.pure _ files
  exact (gives_loadCertificate hkey).bind <| hload.bind <| Gives.pure _ files

end SigningSource

end SecureBoot
