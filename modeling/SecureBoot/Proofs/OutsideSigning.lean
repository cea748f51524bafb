import SecureBoot.Command.Run
import SecureBoot.Proofs.Layers

/-!
# OutsideSigning — a signature made elsewhere gives the same signed image

A signer need not be where the image is.  The digest for it is computed in one place
(`Stage.digest`), the signature is made in another, and a signing with a signer that has it ready
puts the image together.

`outside_signing_agrees`: this gives the octets that signing in one go gives, and also if the image
was padded before.  Signing in one go asks its signer once, for the same digest
(`Signer.recording`), and this is the digest in the block.
-/

namespace SecureBoot

/-! ## Recording signers -/

/-- A signer that answers as another one does and also writes down what it is asked for. -/
def Signer.recording {World σ : Type} (signer : Signer (StateM World) σ) :
    Signer (StateM (World × List Digest)) σ :=
  fun digest state =>
    let (answer, world) := (signer digest).run state.1
    (answer, world, state.2 ++ [digest])

theorem Signer.run_recording {World σ : Type} (signer : Signer (StateM World) σ) (digest : Digest)
    (world : World) (asked : List Digest) :
    (signer.recording digest).run (world, asked) =
      Prod.map id (·, asked ++ [digest]) ((signer digest).run world) := rfl

/-! ## Signatures from elsewhere -/

theorem Signature.ofBytes_toBytes (signature : Signature) :
    ofBytes signature.toBytes = .ok signature := by
  rw [ofBytes, Octets.ofBytes?, dif_pos signature.length_toBytes]

theorem Signature.ofBytes_of_length {raw : Bytes} (h : raw.length ≠ Layout.keyLength) :
    ofBytes raw = .error ⟨none, .signatureLength raw.length⟩ := by
  rw [ofBytes, Octets.ofBytes?, dif_neg h]
  rfl

theorem Signature.ofBytes_eq_ok_iff {raw : Bytes} {signature : Signature} :
    ofBytes raw = .ok signature ↔ raw = signature.toBytes := by
  constructor
  · intro h
    by_cases hlength : raw.length = Layout.keyLength
    · have hraw : ofBytes raw = .ok ⟨raw, hlength⟩ := ofBytes_toBytes ⟨raw, hlength⟩
      cases hraw.symm.trans h
      rfl
    · rw [ofBytes_of_length hlength] at h
      cases h
  · rintro rfl
    exact ofBytes_toBytes signature

/-! ## Digests -/

theorem Image.digestOtaBody_of_length {body : Bytes}
    (h : ¬(body.length % 4096 = 0 ∧ body.length ≠ 0)) :
    digestOtaBody body = .error ⟨some .bootImage, .imageLength body.length 0⟩ := by
  rw [digestOtaBody, requireLength_of_length h]
  rfl

namespace Stage

variable {stage : Stage} {buffer : Bytes}

theorem digest_of_admits (h : stage.Admits buffer) :
    stage.digest buffer = .ok (Sha256.digest (stage.content buffer)) := by
  cases stage with
  | boot => exact congrArg Except.ok (Image.digestBoot_eq buffer)
  | ota =>
      rcases BootImage.exists_toBytes_eq h with ⟨image, rfl⟩
      exact Image.digestOtaBody_toBytes image

theorem digest_of_not_admits (h : ¬stage.Admits buffer) :
    stage.digest buffer = .error ⟨some .bootImage, .imageLength buffer.length 0⟩ := by
  cases stage with
  | boot => exact absurd trivial h
  | ota => exact Image.digestOtaBody_of_length h

/-- There is a digest of what can be signed, and it is the one that signing computes. -/
theorem digest_eq_ok_iff {digest : Digest} :
    stage.digest buffer = .ok digest ↔
      stage.Admits buffer ∧ Sha256.digest (stage.content buffer) = digest := by
  by_cases hadmits : stage.Admits buffer
  · rw [digest_of_admits hadmits, Except.ok.injEq]
    exact (and_iff_right hadmits).symm
  · rw [digest_of_not_admits hadmits]
    refine ⟨nofun, ?_⟩
    rintro ⟨h, -⟩
    exact absurd h hadmits

/-! ## Padding -/

theorem content_content (stage : Stage) (buffer : Bytes) :
    stage.content (stage.content buffer) = stage.content buffer := by
  cases stage with
  | boot => exact Image.align_align buffer
  | ota => rfl

theorem Admits.content (h : stage.Admits buffer) : stage.Admits (stage.content buffer) := by
  cases stage with
  | boot => exact trivial
  | ota => exact h

theorem wrap_content (stage : Stage) (buffer : Bytes) (key : KeyRecord) (signature : Signature) :
    stage.wrap (stage.content buffer) key signature = stage.wrap buffer key signature := by
  have hblock : stage.block (stage.content buffer) key signature =
      stage.block buffer key signature := by
    rw [block, block, content_content]
  cases stage with
  | boot =>
      have halign : Image.align (boot.content buffer) = Image.align buffer :=
        content_content boot buffer
      unfold wrap
      rw [hblock, halign]
  | ota => rfl

/-! ## Signers -/

section Signers

variable {World σ : Type} {signer : Signer (StateM World) σ} {world : World}

/-- The signer is asked once, and nothing else acts. -/
theorem run_sign_recording (h : stage.Admits buffer) (key : KeyRecord) (asked : List Digest) :
    (stage.sign buffer key signer.recording).run (world, asked) =
      Prod.map id (·, asked ++ [Sha256.digest (stage.content buffer)])
        ((stage.sign buffer key signer).run world) := by
  rw [sign_eq_map h, sign_eq_map h, StateT.run_map, StateT.run_map, Signer.run_recording]
  rfl

theorem run_sign_content (h : stage.Admits buffer) (key : KeyRecord) {signature : Signature}
    {world' : World}
    (hanswer : (signer (Sha256.digest (stage.content buffer))).run world =
      (.ok signature, world')) :
    (stage.sign (stage.content buffer) key signer).run world =
      (.ok (stage.wrap buffer key signature), world') := by
  rw [← content_content stage buffer] at hanswer
  rw [run_sign h.content key hanswer, wrap_content]

end Signers

end Stage

/-! ## Both ways -/

/-- Some octets come out of signing a buffer or its padded form with a signer. -/
structure Stage.Signs {World σ : Type} (stage : Stage) (buffer : Bytes) (key : KeyRecord)
    (signer : Signer (StateM World) σ) (world : World) (bytes : Bytes) (world' : World) :
    Prop where
  buffer_signed : (stage.sign buffer key signer).run world = (.ok bytes, world')
  content_signed : (stage.sign (stage.content buffer) key signer).run world = (.ok bytes, world')

/-- Where there is a digest, the signer is asked once and for it.  If it answers with a signature,
the signature read from its octets gives the same image anywhere, and the digest is in the block.
Where there is none, the signer is not asked.  Just the strings of 384 octets are signatures. -/
theorem outside_signing_agrees :
    (∀ (World σ : Type) (stage : Stage) (buffer : Bytes) (key : KeyRecord)
        (signer : Signer (StateM World) σ) (world : World) (digest : Digest),
      stage.digest buffer = .ok digest →
      (∀ asked, (stage.sign buffer key signer.recording).run (world, asked) =
        Prod.map id (·, asked ++ [digest]) ((stage.sign buffer key signer).run world)) ∧
      ∀ (signature : Signature) (world' : World),
        (signer digest).run world = (.ok signature, world') →
        ∃ (bytes : Bytes) (block : SignatureBlock) (presigned : Signature),
          stage.Signs buffer key signer world bytes world' ∧
          Signature.ofBytes signature.toBytes = .ok presigned ∧
          (∀ (Elsewhere τ : Type) (there : Elsewhere),
            stage.Signs buffer key (Signer.presigned presigned : Signer (StateM Elsewhere) τ) there
              bytes there) ∧
          stage.undo bytes = .ok (stage.content buffer, block) ∧ block.digest = digest) ∧
    (∀ (World σ : Type) (stage : Stage) (buffer : Bytes) (key : KeyRecord)
        (signer : Signer (StateM World) σ) (world : World) (asked : List Digest)
        (fault : Fault Empty),
      stage.digest buffer = .error fault →
      (stage.sign buffer key signer.recording).run (world, asked) =
        (.error fault.widen, world, asked)) ∧
    ∀ (raw : Bytes),
      (∀ signature, Signature.ofBytes raw = .ok signature ↔ raw = signature.toBytes) ∧
      ((∃ signature, Signature.ofBytes raw = .ok signature) ↔ raw.length = 384) := by
  refine ⟨?_, ?_, ?_⟩
  · intro World σ stage buffer key signer world digest hdigest
    rcases Stage.digest_eq_ok_iff.1 hdigest with ⟨hadmits, rfl⟩
    refine ⟨fun asked => Stage.run_sign_recording hadmits key asked, ?_⟩
    intro signature world' hanswer
    refine ⟨stage.wrap buffer key signature, stage.block buffer key signature, signature, ?_,
      Signature.ofBytes_toBytes signature, ?_, Stage.undo_wrap buffer key signature hadmits, ?_⟩
    · exact ⟨Stage.run_sign hadmits key hanswer, Stage.run_sign_content hadmits key hanswer⟩
    · intro Elsewhere τ there
      exact ⟨Stage.run_sign hadmits key rfl, Stage.run_sign_content hadmits key rfl⟩
    · exact SignatureBlock.digest_pack _ key signature
  · intro World σ stage buffer key signer world asked fault hfault
    by_cases hadmits : stage.Admits buffer
    · rw [Stage.digest_of_admits hadmits] at hfault
      cases hfault
    · rw [Stage.digest_of_not_admits hadmits] at hfault
      cases hfault
      exact Stage.run_sign_of_not_admits hadmits key
  · intro raw
    refine ⟨fun signature => Signature.ofBytes_eq_ok_iff, ?_⟩
    constructor
    · rintro ⟨signature, hsignature⟩
      rw [Signature.ofBytes_eq_ok_iff.1 hsignature]
      exact signature.length_toBytes
    · intro hlength
      exact ⟨⟨raw, hlength⟩, Signature.ofBytes_toBytes ⟨raw, hlength⟩⟩

/-- A signer that counts its signatures and always gives zeros. -/
def countingSigner : Signer (StateM Nat) Empty :=
  fun _ count => (.ok (Octets.fill 384 0), count + 1)

/-- The counting signer and its signature read from a file, on an empty image; and an empty body,
for which the signer is not asked. -/
theorem outside_signing_agrees_counting :
    ∃ (bytes : Bytes) (presigned : Signature),
      (Stage.boot.sign [] KeyRecord.blank countingSigner).run 6 = (.ok bytes, 7) ∧
      Signature.ofBytes (List.replicate 384 0) = .ok presigned ∧
      (Stage.boot.sign [] KeyRecord.blank
        (Signer.presigned presigned : Signer (StateM Unit) Empty)).run () = (.ok bytes, ()) ∧
      (Stage.ota.sign [] KeyRecord.blank countingSigner.recording).run (7, []) =
        (.error ⟨some .bootImage, .imageLength 0 0⟩, 7, []) := by
  rcases outside_signing_agrees with ⟨hagree, hrefused, -⟩
  rcases hagree Nat Empty .boot [] KeyRecord.blank countingSigner 6 (Image.digestBoot []) rfl with
    ⟨-, hanswer⟩
  rcases hanswer (Octets.fill 384 0) 7 rfl with
    ⟨bytes, block, presigned, hsigns, hread, helsewhere, -, -⟩
  have hempty : ¬Stage.ota.Admits [] := fun h => h.2 rfl
  exact ⟨bytes, presigned, hsigns.buffer_signed, hread, (helsewhere Unit Empty ()).buffer_signed,
    hrefused Nat Empty .ota [] KeyRecord.blank countingSigner 7 [] _
      (Stage.digest_of_not_admits hempty)⟩

end SecureBoot
