import SecureBoot.Proofs.Certificate
import SecureBoot.Proofs.KeyFormat
import SecureBoot.Proofs.KeyReconstruction
import SecureBoot.Proofs.Loading

/-!
# KeySources — one key, whatever file it comes from

A public key comes in the PKCS#1 format, as an info of any algorithm or in a certificate, each in
binary form or as PEM text.  `key_sources_agree` says that all of these give one record, and that a
certificate gives what the key in it gives, faults included.
-/

namespace SecureBoot

open Pem

namespace KeyRecord

/-- The record of the key in a file, whose form is told from its content. -/
def loadFile (data : Bytes) : Checked KeyRecord :=
  load (KeyFormat.detect data) data

variable {key : Rsa.PublicKey} {certificate info data : Bytes}

theorem load_congr {format format' : KeyFormat} {other : Bytes}
    (h : format.rsaKey data = format'.rsaKey other) : load format data = load format' other := by
  rw [load, load, h]

theorem loadFile_encodeWith {format : KeyFormat} {label : String} (h : format.label? = some label)
    (lineEnd : LineEnd) (data : Bytes) :
    loadFile (encodeWith lineEnd label data) = load format (encodeWith lineEnd label data) := by
  rw [loadFile, KeyFormat.detect_encodeWith h]

/-- A PEM text of an info is read as the info is. -/
theorem loadFile_publicKey (lineEnd : LineEnd) (h : data ≠ []) :
    loadFile (encodeWith lineEnd KeyFormat.publicKeyLabel data) = load .derPublicKey data := by
  have hlabel : KeyFormat.pemPublicKey.label? = some KeyFormat.publicKeyLabel := rfl
  rw [loadFile_encodeWith hlabel]
  refine load_congr ?_
  simp [KeyFormat.rsaKey, decode?_encodeWith lineEnd _ h]

/-! ## Public keys -/

/-- A key with a record may be used if its exponent is odd and not one. -/
theorem check_of_creatable (h : Creatable key) (hodd : key.exponent % 2 = 1)
    (hthree : 3 ≤ key.exponent) : key.check = .ok () := by
  have hlarge : 2 ^ 32 ≤ key.modulus :=
    two_pow_le_of_lt_bitLength (h.bitLength_eq ▸ by decide)
  have hbits := h.bitLength_eq
  have hexponent := h.exponent_lt
  have hmodulus := h.modulus_odd
  refine Rsa.PublicKey.check_eq_ok_iff.2 ⟨?_, ⟨?_, hmodulus⟩, hodd, ?_, ?_⟩ <;> omega

/-- The info of an RSA key in binary form. -/
def infoOf (key : Rsa.PublicKey) : Bytes :=
  (PublicKeyInfo.ofRsa key).toElement.encode

theorem infoOf_ne_nil (key : Rsa.PublicKey) : infoOf key ≠ [] :=
  Der.Element.encode_ne_nil _

theorem load_infoOf (h : key.check = .ok ()) :
    load .derPublicKey (infoOf key) = create key := by
  have hinfo : PublicKeyInfo.ofBytes? (infoOf key) = some (PublicKeyInfo.ofRsa key) :=
    PublicKeyInfo.ofBytes?_encode_ofRsa h
  generalize infoOf key = data at hinfo ⊢
  refine load_of_rsaKey ?_
  rw [KeyFormat.rsaKey, hinfo]
  exact PublicKeyInfo.rsaKey_ofRsa h

theorem loadFile_pkcs1 (h : key.check = .ok ()) (lineEnd : LineEnd) :
    loadFile (encodeWith lineEnd KeyFormat.rsaPublicKeyLabel key.toPkcs1) = create key := by
  have hlabel : KeyFormat.pemRsaPublicKey.label? = some KeyFormat.rsaPublicKeyLabel := rfl
  have hkey := Rsa.PublicKey.ofPkcs1?_toPkcs1 h
  have hne : key.toPkcs1 ≠ [] := Der.Element.encode_ne_nil _
  rw [loadFile_encodeWith hlabel]
  generalize key.toPkcs1 = data at hkey hne ⊢
  refine load_of_rsaKey ?_
  simp [KeyFormat.rsaKey, decode?_encodeWith lineEnd _ hne, hkey]

/-! ## Certificates -/

open Certificate

/-- A certificate gives what the key in it gives, whether or not that is a key for a record. -/
theorem load_of_carries (h : Carries certificate info) :
    load .derCertificate certificate = load .derPublicKey info := by
  refine load_congr ?_
  rw [KeyFormat.rsaKey, KeyFormat.rsaKey, h.ofBytes?_eq.1]

theorem loadFile_of_carries (h : Carries certificate info) :
    loadFile certificate = load .derPublicKey info := by
  have hload := load_of_carries h
  rcases h with ⟨parts, -, -, rfl, -⟩
  rw [loadFile, ← hload]
  exact congrArg (load · _) (KeyFormat.detect_of_sequence _)

theorem loadFile_certificate (lineEnd : LineEnd) (h : Carries certificate info) :
    loadFile (encodeWith lineEnd KeyFormat.certificateLabel certificate) =
      load .derPublicKey info := by
  have hlabel : KeyFormat.pemCertificate.label? = some KeyFormat.certificateLabel := rfl
  have hne : certificate ≠ [] := by
    rcases h with ⟨parts, -, -, rfl, -⟩
    exact Der.Element.encode_ne_nil _
  rcases Option.isSome_iff_exists.1 h.ofBytes?_eq.2 with ⟨found, hfound⟩
  rw [loadFile_encodeWith hlabel, ← load_of_carries h]
  refine load_congr ?_
  simp [KeyFormat.rsaKey, decode?_encodeWith lineEnd _ hne, hfound, ofFront?_of_ofBytes? hfound]

theorem exists_carries_infoOf (h : key.check = .ok ()) :
    ∃ certificate, Carries certificate (infoOf key) := by
  have hinfo : (PublicKeyInfo.ofElement? (PublicKeyInfo.ofRsa key).toElement).isSome = true := by
    rw [PublicKeyInfo.ofElement?_toElement_ofRsa h]
    rfl
  exact exists_carries (PublicKeyInfo.readable_toElement_ofRsa h) hinfo
    (PublicKeyInfo.length_content_ofRsa_le h)

end KeyRecord

open KeyRecord Certificate

/-- All files with a key give the record of the key, and a certificate gives the record or the fault
that the key in it gives. -/
theorem key_sources_agree :
    (∀ key : Rsa.PublicKey, bitLength key.modulus = 3072 → key.modulus % 2 = 1 →
      key.exponent % 2 = 1 → 3 ≤ key.exponent → key.exponent < 2 ^ 32 →
      ∃ record, create key = .ok record ∧
        (∀ lineEnd, loadFile (encodeWith lineEnd KeyFormat.rsaPublicKeyLabel key.toPkcs1) =
          .ok record) ∧
        (∀ lineEnd, loadFile (encodeWith lineEnd KeyFormat.publicKeyLabel (infoOf key)) =
          .ok record) ∧
        load .derPublicKey (infoOf key) = .ok record ∧
        (∃ certificate, Carries certificate (infoOf key)) ∧
        ∀ certificate, Carries certificate (infoOf key) →
          loadFile certificate = .ok record ∧
          ∀ lineEnd, loadFile (encodeWith lineEnd KeyFormat.certificateLabel certificate) =
            .ok record) ∧
    (∀ certificate, (Certificate.ofBytes? certificate).isSome = true ↔
      ∃ info, Carries certificate info) ∧
    ∀ certificate info, Carries certificate info →
      load .derCertificate certificate = load .derPublicKey info ∧
      loadFile certificate = load .derPublicKey info ∧
      ∀ lineEnd, loadFile (encodeWith lineEnd KeyFormat.certificateLabel certificate) =
        load .derPublicKey info := by
  refine ⟨?_, ?_, ?_⟩
  · intro key hbits hmodulus hodd hthree hexponent
    have hcreatable : Creatable key := ⟨hbits, hexponent, hmodulus⟩
    have hcheck := check_of_creatable hcreatable hodd hthree
    rcases exists_create_iff.2 hcreatable with ⟨record, hrecord⟩
    have hload : load .derPublicKey (infoOf key) = .ok record :=
      (load_infoOf hcheck).trans hrecord
    refine ⟨record, hrecord, ?_, ?_, hload, exists_carries_infoOf hcheck, ?_⟩
    · intro lineEnd
      exact (loadFile_pkcs1 hcheck lineEnd).trans hrecord
    · intro lineEnd
      exact (loadFile_publicKey lineEnd (infoOf_ne_nil key)).trans hload
    · intro certificate hcarries
      refine ⟨(loadFile_of_carries hcarries).trans hload, ?_⟩
      intro lineEnd
      exact (loadFile_certificate lineEnd hcarries).trans hload
  · intro certificate
    constructor
    · exact exists_carries_of_isSome
    · rintro ⟨info, hcarries⟩
      exact hcarries.ofBytes?_eq.2
  · intro certificate info hcarries
    refine ⟨load_of_carries hcarries, loadFile_of_carries hcarries, ?_⟩
    intro lineEnd
    exact loadFile_certificate lineEnd hcarries

/-- An info with a key on an elliptic curve. -/
def curveInfo : PublicKeyInfo :=
  ⟨⟨[0x2a, 0x86, 0x48, 0xce, 0x3d, 0x02, 0x01], none⟩, ⟨0, [0x04]⟩⟩

/-- The sample key comes from every file; a certificate with a short RSA key and one with a key on a
curve are refused for the reason that the key in them is. -/
theorem key_sources_agree_samples :
    ∃ (record : KeyRecord) (certificate short curve : Bytes),
      create Rsa.sampleKey.toPublicKey = .ok record ∧
      loadFile (encodeWith .crlf KeyFormat.rsaPublicKeyLabel Rsa.sampleKey.toPublicKey.toPkcs1) =
        .ok record ∧
      Carries certificate (infoOf Rsa.sampleKey.toPublicKey) ∧
      loadFile certificate = .ok record ∧
      Carries short (infoOf ⟨35, 3⟩) ∧
      loadFile short = .error (Fault.ofKey (.size 6)) ∧
      Carries curve curveInfo.toElement.encode ∧
      load .derCertificate curve = .error (Fault.ofKey .notRsa) := by
  rcases key_sources_agree with ⟨hkeys, -, hsame⟩
  rcases hkeys Rsa.sampleKey.toPublicKey (by decide +kernel) (by decide +kernel)
    (by decide +kernel) (by decide +kernel) (by decide +kernel) with
    ⟨record, hrecord, hpkcs1, -, -, ⟨certificate, hcarries⟩, hcertificates⟩
  have hcheck : (⟨35, 3⟩ : Rsa.PublicKey).check = .ok () := by
    decide
  rcases exists_carries_infoOf hcheck with ⟨short, hshort⟩
  have hcurve : curveInfo.toElement.Readable := ⟨by decide, by decide⟩
  rcases exists_carries hcurve (by decide +kernel) (by decide) with ⟨curve, hcurveCarries⟩
  have hsize : load .derPublicKey (infoOf ⟨35, 3⟩) = .error (Fault.ofKey (.size 6)) := by
    decide +kernel
  have hnotRsa : load .derPublicKey curveInfo.toElement.encode =
      .error (Fault.ofKey .notRsa) := by
    decide +kernel
  exact ⟨record, certificate, short, curve, hrecord, hpkcs1 .crlf, hcarries,
    (hcertificates certificate hcarries).1, hshort, (hsame short _ hshort).2.1.trans hsize,
    hcurveCarries, (hsame curve _ hcurveCarries).1.trans hnotRsa⟩

end SecureBoot
