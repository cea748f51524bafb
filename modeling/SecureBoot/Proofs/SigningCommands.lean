import SecureBoot.Command.Run
import SecureBoot.Proofs.Answers
import SecureBoot.Proofs.Loading
import SecureBoot.Proofs.Publishing
import SecureBoot.Proofs.Saving

/-!
# SigningCommands — what the commands that sign write

A command that signs loads its key and the image, signs, verifies what it has signed, and only then
publishes it.  So what it makes verifies under the key, whatever its signer was
(`Makes`), and what is on disk afterwards is either what was there before or an image that the
command has made (`SigningRun`).
-/

namespace SecureBoot

open SecureBoot.Action Workspace

/-! ## Verified images -/

namespace Stage

/-- An image with a block behind it. -/
def framed (stage : Stage) (image : Bytes) (block : SignatureBlock) : Bytes :=
  match stage with
  | boot => Image.align image ++ block.toBytes ++ Image.fill 2880
  | ota => image ++ (Sha256.digest block.toBytes).toBytes ++ block.toBytes

/-- An image signed by a key: it verifies under the key and holds it in its block. -/
def IsSigned (stage : Stage) (image : Bytes) (key : KeyRecord) (bytes : Bytes) : Prop :=
  ∃ block, bytes = stage.framed image block ∧ stage.verify bytes key = .ok block ∧ block.key = key

variable {stage : Stage} {buffer : Bytes}

theorem verify_wrap (h : stage.Admits buffer) (key trusted : KeyRecord) (signature : Signature) :
    stage.verify (stage.wrap buffer key signature) trusted =
      ((stage.block buffer key signature).authenticate (stage.content buffer) trusted).mapError
        (Fault.on stage.artifact) := by
  cases stage with
  | boot =>
      exact BootImage.verify_framed (Image.length_align_mod buffer)
        (boot.block buffer key signature) (Image.length_fill 2880) trusted
  | ota => exact OtaImage.verify_framed h (ota.block buffer key signature) trusted

/-- What is signed with a key verifies under it. -/
theorem verify_wrap_of_signature {key trusted : KeyRecord}
    {publicKey : Rsa.PublicKey} {signature : Signature} (h : stage.Admits buffer)
    (hkey : trusted.rsaKey = .ok publicKey)
    (hsignature : Pss.verify publicKey (Sha256.digest (stage.content buffer)) signature.toBytes =
      true) :
    stage.verify (stage.wrap buffer key signature) trusted =
      .ok (stage.block buffer key signature) := by
  rw [verify_wrap h, block,
    SignatureBlock.authenticate_pack_of_signature hkey hsignature]
  rfl

/-- If what an operation has put together verifies under a key, it does so with the block that was
made, and the signature was one over this image. -/
theorem of_verify_wrap {key trusted : KeyRecord} {signature : Signature} {block : SignatureBlock}
    (h : stage.Admits buffer)
    (hverify : stage.verify (stage.wrap buffer key signature) trusted = .ok block) :
    block = stage.block buffer key signature ∧
      Pss.verify trusted.publicKey (Sha256.digest (stage.content buffer)) signature.toBytes =
        true := by
  -- Nothing is left to be checked but the key and the signature.
  have hleft :=
    leftToSignature_authenticate stage.artifact (stage.content buffer) key trusted signature
  rw [verify_wrap h] at hverify
  have hblock : block = stage.block buffer key signature := hleft.accepts_only block hverify
  rw [hblock] at hverify
  rcases hleft.accepts_iff.1 hverify with ⟨publicKey, hkey, hsignature⟩
  exact ⟨hblock, KeyRecord.eq_publicKey_of_rsaKey hkey ▸ hsignature⟩

/-- If what an operation has put together verifies under its key, it is signed by the key. -/
theorem isSigned_of_verify {key : KeyRecord} {signature : Signature} {block : SignatureBlock}
    (h : stage.Admits buffer)
    (hverify : stage.verify (stage.wrap buffer key signature) key = .ok block) :
    stage.IsSigned buffer key (stage.wrap buffer key signature) := by
  refine ⟨block, ?_, hverify, ?_⟩
  · rw [(of_verify_wrap h hverify).1]
    cases stage with
    | boot => rfl
    | ota => rfl
  · rw [(of_verify_wrap h hverify).1]
    exact SignatureBlock.key_pack _ key signature

end Stage

/-! ## Making signed images -/

/-- What a command that signs can make of the image in a file: an image signed by the key of the
source.  A signature from elsewhere is one over this very image. -/
structure Makes (stage : Stage) (source : SigningSource) (image : String) (files : Files)
    (data : Bytes) (key : KeyRecord) (bytes : Bytes) : Prop where
  image_eq : files.contentOf image = .ok data
  keyIs : source.KeyIs files key
  isSigned : stage.IsSigned data key bytes
  presigned : ∀ path certificate, source = .presigned path certificate →
    ∃ signature : Signature, files.contentOf path = .ok signature.toBytes ∧
      Pss.verify key.publicKey (Sha256.digest (stage.content data)) signature.toBytes = true

theorem finds_verifyImage (stage : Stage) (data : Bytes) (trusted : KeyRecord)
    (failure : Fault Empty → Failure) :
    (verifyImage stage data trusted failure : Action Session SignatureBlock).Finds
      fun _ block => stage.verify data trusted = .ok block := by
  refine ((finds_say _).bind fun _ =>
    (finds_ofResult (stage.verify data trusted) failure).bind fun block =>
      (finds_say _).bind fun _ => Finds.pure block).mono ?_
  rintro files found ⟨-, -, block, hblock, -, -, rfl⟩
  exact hblock

/-- The digest is logged, and then signed. -/
theorem finds_announcing {signer : Signer Session Pss.SigningFault} {digest : Digest}
    {Found : Files → Except Pss.SigningFault Signature → Prop}
    (h : Session.Finds (signer digest) Found) (stage : Stage) :
    Session.Finds (signer.announcing stage digest) Found := by
  refine ((Session.finds_log (Report.digestComputed stage digest)).bind fun _ => h).mono ?_
  rintro files answer ⟨-, -, hanswer⟩
  exact hanswer

section Making

variable {Allowed : Signature → Prop} {signer : Signer Session Pss.SigningFault}
  (h : ∀ digest, Session.Finds (signer digest) fun _ answer =>
    ∀ signature, answer = .ok signature → Allowed signature)

include h

/-- An operation that succeeds has got a signature. -/
theorem finds_sign (stage : Stage) (buffer : Bytes) (key : KeyRecord) :
    Session.Finds (stage.sign buffer key (signer.announcing stage)) fun _ result =>
      ∀ bytes, result = .ok bytes → stage.Admits buffer ∧
        ∃ signature, Allowed signature ∧ bytes = stage.wrap buffer key signature := by
  by_cases hadmits : stage.Admits buffer
  · rw [Stage.sign_eq_map hadmits]
    refine ((finds_announcing (h (Sha256.digest (stage.content buffer))) stage).map _).mono ?_
    rintro files result ⟨answer, hanswer, rfl⟩ bytes hbytes
    cases answer with
    | ok signature =>
        cases hbytes
        exact ⟨hadmits, signature, hanswer signature rfl, rfl⟩
    | error failure => cases hbytes
  · intro w
    have hrun : (stage.sign buffer key (signer.announcing stage)).run w = _ :=
      Stage.run_sign_of_not_admits hadmits key
    rw [hrun]
    exact ⟨.refl w, nofun⟩

theorem finds_makeBootImage (image : String) (key trusted : KeyRecord) :
    (makeBootImage image key signer trusted).Finds fun files found =>
      ∃ data signature, files.contentOf image = .ok data ∧ Allowed signature ∧
        found.1.toBytes = Stage.boot.wrap data key signature ∧
        Stage.boot.verify found.1.toBytes trusted = .ok found.2 := by
  refine ((finds_loadImage image).bind fun data =>
    (finds_say _).bind fun _ =>
      (finds_ask (Session.Finds.of_map (finds_sign h .boot data key)) _).bind fun signed =>
        (finds_say _).bind fun _ =>
          (finds_verifyImage .boot signed.toBytes trusted _).bind fun block =>
            Finds.pure (signed, block)).mono ?_
  rintro files found ⟨data, hdata, -, -, signed, hsigned, -, -, block, hblock, rfl⟩
  rcases hsigned signed.toBytes rfl with ⟨-, signature, hallowed, hwrap⟩
  exact ⟨data, signature, hdata, hallowed, hwrap, hblock⟩

theorem finds_makeOtaImage (image : String) (body : Bytes) (key trusted : KeyRecord) :
    (makeOtaImage image body key signer trusted).Finds fun _ signed =>
      Stage.ota.Admits body ∧ ∃ signature block, Allowed signature ∧
        signed.toBytes = Stage.ota.wrap body key signature ∧
        Stage.ota.verify signed.toBytes trusted = .ok block := by
  refine ((finds_say _).bind fun _ =>
    (finds_ask (Session.Finds.of_map (finds_sign h .ota body key)) _).bind fun signed =>
      (finds_say _).bind fun _ =>
        (finds_verifyImage .ota signed.toBytes trusted _).bind fun _ => Finds.pure signed).mono ?_
  rintro files found ⟨-, -, signed, hsigned, -, -, block, hblock, rfl⟩
  rcases hsigned found.toBytes rfl with ⟨hadmits, signature, hallowed, hwrap⟩
  exact ⟨hadmits, signature, block, hallowed, hwrap, hblock⟩

end Making

/-! ### Signatures from elsewhere -/

section Presigned

variable {files : Files} {image : String} {data : Bytes} {key : KeyRecord}
  {publicKey : Rsa.PublicKey} {signature : Signature}

theorem gives_verifyImage {stage : Stage} {trusted : KeyRecord} {block : SignatureBlock}
    (h : stage.verify data trusted = .ok block) (failure : Fault Empty → Failure) (files : Files) :
    (verifyImage stage data trusted failure : Action Session SignatureBlock).Gives files block :=
  (gives_say _ files).bind <| (gives_ofResult h failure files).bind <|
    (gives_say _ files).bind <| Gives.pure block files

/-- A signature that verifies is enough to make the image. -/
theorem gives_makeBootImage (hdata : files.contentOf image = .ok data)
    (hkey : key.rsaKey = .ok publicKey)
    (hsignature :
      Pss.verify publicKey (Sha256.digest (Image.align data)) signature.toBytes = true) :
    ∃ made, (makeBootImage image key (Signer.presigned signature) key :
      Action Session (BootImage × SignatureBlock)).Gives files made := by
  let signed := BootImage.assemble data (Sha256.digest (Image.align data)) key signature
  let signer : Signer Session Pss.SigningFault := .presigned signature
  have hsign : Session.Gives (BootImage.sign data key (signer.announcing .boot)) files
      (.ok signed) :=
    fun w _ => ⟨w.addLine _, rfl, sameFiles_addLine w _⟩
  have hverify : Stage.boot.verify signed.toBytes key = .ok signed.block :=
    BootImage.verify_assemble hkey hsignature
  exact ⟨(signed, signed.block), (gives_loadImage hdata).bind <| (gives_say _ files).bind <|
    (gives_ask hsign _).bind <| (gives_say _ files).bind <|
      (gives_verifyImage hverify _ files).bind <| Gives.pure _ files⟩

end Presigned

/-! ### Signatures with a private key -/

section PrivateKey

variable {key : SigningKey} {record : KeyRecord} (husable : key.key.Usable)
  (hrecord : record.rsaKey = .ok key.key.toPublicKey)

include husable hrecord

/-- An operation that signs with the key succeeds, and what it makes verifies. -/
theorem finds_signed {stage : Stage} {buffer : Bytes} {Image : Type} {toBytes : Image → Bytes}
    {request : Session (Except (Fault Pss.SigningFault) Image)} (h : stage.Admits buffer)
    (hrequest : Except.map toBytes <$> request =
      stage.sign buffer record ((SigningMaterial.privateKey key).signer.announcing stage)) :
    Session.Finds request fun _ result => ∃ image, result = .ok image ∧
      ∃ block, stage.verify (toBytes image) record = .ok block := by
  have hsign : Session.Finds (Except.map toBytes <$> request) fun _ result =>
      ∃ bytes block, result = .ok bytes ∧ stage.verify bytes record = .ok block := by
    rw [hrequest, Stage.sign_eq_map h]
    refine ((finds_announcing (SigningMaterial.finds_signer_privateKey husable
      (Sha256.digest (stage.content buffer))) stage).map _).mono ?_
    rintro files result ⟨answer, ⟨signature, rfl, hsignature⟩, rfl⟩
    exact ⟨_, _, rfl, Stage.verify_wrap_of_signature h hrecord hsignature⟩
  refine (Session.Finds.of_map hsign).mono ?_
  rintro files result ⟨bytes, block, hbytes, hverify⟩
  cases result with
  | error failure => cases hbytes
  | ok image =>
      cases hbytes
      exact ⟨image, rfl, block, hverify⟩

theorem yields_makeBootImage {files : Files} {image : String} {data : Bytes}
    (hdata : files.contentOf image = .ok data) :
    (makeBootImage image record (SigningMaterial.privateKey key).signer record :
      Action Session (BootImage × SignatureBlock)).Yields files fun _ => True := by
  refine (gives_loadImage hdata).yields.bind ?_
  rintro found rfl
  refine (gives_say _ files).yields.bind fun _ _ => ?_
  refine (yields_ask (finds_signed husable hrecord (Stage.admits_boot found) rfl) _ files).bind ?_
  rintro signed ⟨block, hverify⟩
  refine (gives_say _ files).yields.bind fun _ _ => ?_
  refine (gives_verifyImage hverify _ files).yields.bind fun _ _ => ?_
  exact (Gives.pure (signed, _) files).yields.mono fun _ _ => trivial

theorem yields_makeOtaImage {body : Bytes} (hbody : Stage.ota.Admits body) (image : String)
    (files : Files) :
    (makeOtaImage image body record (SigningMaterial.privateKey key).signer record :
      Action Session OtaImage).Yields files fun _ => True := by
  refine (gives_say _ files).yields.bind fun _ _ => ?_
  refine (yields_ask (finds_signed husable hrecord hbody rfl) _ files).bind ?_
  rintro signed ⟨block, hverify⟩
  refine (gives_say _ files).yields.bind fun _ _ => ?_
  refine (gives_verifyImage hverify _ files).yields.bind fun _ _ => ?_
  exact (Gives.pure signed files).yields.mono fun _ _ => trivial

end PrivateKey

/-! ## Commands -/

/-- What was loaded and made fits together. -/
theorem makes_of_wrap {stage : Stage} {source : SigningSource} {image : String} {files : Files}
    {data : Bytes} {key : KeyRecord} {signature : Signature} {block : SignatureBlock}
    (himage : files.contentOf image = .ok data) (hkey : source.KeyIs files key)
    (hallows : source.Allows files signature) (hadmits : stage.Admits data)
    (hverify : stage.verify (stage.wrap data key signature) key = .ok block) :
    Makes stage source image files data key (stage.wrap data key signature) := by
  refine ⟨himage, hkey, Stage.isSigned_of_verify hadmits hverify, ?_⟩
  intro path certificate hsource
  exact ⟨signature, hallows path certificate hsource, (Stage.of_verify_wrap hadmits hverify).2⟩

def lastSector (bytes : Bytes) : Bytes :=
  bytes.drop (bytes.length - 4096)

/-- The signature sector as an output. -/
def sectorOutput (bytes : Bytes) (path : String) : Output :=
  ⟨.signatureSector, path, lastSector bytes⟩

/-- The command has failed and changed nothing, or goes on to publish what it has made. -/
theorem Command.runSignBoot_cases (source : SigningSource) (sector : Option String)
    (image signed : String) (w : Workspace) :
    (∃ failure w', (runSignBoot source sector image signed).runIn w = (.error failure, w') ∧
        SameFiles w w') ∨
      ∃ data key bytes w', Makes .boot source image w.files data key bytes ∧ SameFiles w w' ∧
        (runSignBoot source sector image signed).runIn w =
          (publish (⟨.signedImage, signed, bytes⟩ :: (sector.map (sectorOutput bytes)).toList)
            []).runIn w' := by
  unfold runSignBoot
  rcases source.finds_load.cases _ w with hfailed | ⟨⟨material, key⟩, w₁, hload, hsame, hrun⟩
  · exact .inl hfailed
  rw [hrun]
  rcases (finds_makeBootImage material.finds_signer image key key).cases _ w₁ with
    ⟨failure, w', hfailed, hsame'⟩ | ⟨⟨image', block⟩, w₂, hmake, hsame', hrun'⟩
  · exact .inl ⟨failure, w', hfailed, hsame.trans hsame'⟩
  rw [hsame.files_eq] at hmake
  rcases hmake with ⟨data, signature, hdata, hgives, hbytes, hverify⟩
  rw [hbytes] at hverify
  have hblock : block = Stage.boot.block data key signature :=
    (Stage.of_verify_wrap (Stage.admits_boot data) hverify).1
  -- The sector is saved from the block that verification has returned, not from the image.
  have hsector : (block.save true (Sink.empty none none)).1.accepted =
      lastSector image'.toBytes := by
    rw [hbytes, hblock]
    exact SignatureBlock.accepted_save_eq_drop (Image.align data) _
  refine .inr ⟨data, key, image'.toBytes, w₂, ?_, hsame.trans hsame', ?_⟩
  · rw [hbytes]
    exact makes_of_wrap hdata hload.1 (hload.2 signature hgives) (Stage.admits_boot data) hverify
  · rw [hrun']
    simp only [hsector]
    rfl

/-- With a signature from elsewhere that verifies, the command gets to publish its outputs. -/
theorem Command.exists_publish_runSignBoot (signed : String) (sector : Option String)
    {path certificate image : String} {w : Workspace} {data : Bytes} {key : KeyRecord}
    {publicKey : Rsa.PublicKey} {signature : Signature}
    (hcertificate : w.files.CertificateKey certificate key)
    (hpath : w.files.contentOf path = .ok signature.toBytes)
    (hdata : w.files.contentOf image = .ok data) (hkey : key.rsaKey = .ok publicKey)
    (hsignature :
      Pss.verify publicKey (Sha256.digest (Image.align data)) signature.toBytes = true) :
    ∃ outputs w', outputs.map Output.path = signed :: sector.toList ∧ SameFiles w w' ∧
      (runSignBoot (.presigned path certificate) sector image signed).runIn w =
        (publish outputs []).runIn w' := by
  unfold runSignBoot
  rcases SigningSource.gives_load_presigned hcertificate hpath w rfl with ⟨w₁, hload, hsame⟩
  rw [runIn_bind_of_ok hload]
  rcases gives_makeBootImage hdata hkey hsignature with ⟨⟨bytes, block⟩, hmake⟩
  rcases hmake w₁ hsame.files_eq with ⟨w₂, hmade, hsame'⟩
  simp only [SigningMaterial.signer]
  rw [runIn_bind_of_ok hmade]
  refine ⟨_, w₂, ?_, hsame.trans hsame', rfl⟩
  cases sector with
  | none => rfl
  | some other => rfl

/-- With a signature from elsewhere that verifies, the command ends as the publishing of its outputs
does. -/
theorem Command.exists_ending_runSignBoot (signed : String) (sector : Option String)
    {path certificate image : String} {w : Workspace} {data : Bytes} {key : KeyRecord}
    {publicKey : Rsa.PublicKey} {signature : Signature} (h : w.Fresh)
    (hcertificate : w.files.CertificateKey certificate key)
    (hpath : w.files.contentOf path = .ok signature.toBytes)
    (hdata : w.files.contentOf image = .ok data) (hkey : key.rsaKey = .ok publicKey)
    (hsignature :
      Pss.verify publicKey (Sha256.digest (Image.align data)) signature.toBytes = true) :
    ∃ outputs result w', outputs.map Output.path = signed :: sector.toList ∧
      (runSignBoot (.presigned path certificate) sector image signed).runIn w = (result, w') ∧
      Ending w.files outputs result w' := by
  rcases exists_publish_runSignBoot signed sector hcertificate hpath hdata hkey hsignature with
    ⟨outputs, w₁, hpaths, hsame, hrun⟩
  rcases publish_ends outputs [] (hsame.fresh h) with ⟨result, w', hpublish, hending⟩
  rw [hsame.files_eq] at hending
  exact ⟨outputs, result, w', hpaths, hrun.trans hpublish, hending⟩

theorem Command.runSignOta_cases (source : SigningSource) (image signed : String)
    (w : Workspace) :
    (∃ failure w', (runSignOta source image signed).runIn w = (.error failure, w') ∧
        SameFiles w w') ∨
      ∃ data key bytes w', Makes .ota source image w.files data key bytes ∧ SameFiles w w' ∧
        (runSignOta source image signed).runIn w =
          (publish [⟨.otaSignedImage, signed, bytes⟩] []).runIn w' := by
  unfold runSignOta
  rcases source.finds_load.cases _ w with hfailed | ⟨⟨material, key⟩, w₁, hload, hsame, hrun⟩
  · exact .inl hfailed
  rw [hrun]
  rcases (finds_loadImage image).cases _ w₁ with
    ⟨failure, w', hfailed, hsame'⟩ | ⟨data, w₂, hdata, hsame', hrun'⟩
  · exact .inl ⟨failure, w', hfailed, hsame.trans hsame'⟩
  rw [hsame.files_eq] at hdata
  rcases (finds_makeOtaImage material.finds_signer image data key key).cases _ w₂ with
    ⟨failure, w', hfailed, hsame''⟩ | ⟨wrapped, w₃, hmake, hsame'', hrun''⟩
  · exact .inl ⟨failure, w', hrun'.trans hfailed, (hsame.trans hsame').trans hsame''⟩
  rcases hmake with ⟨hadmits, signature, block, hgives, hbytes, hverify⟩
  refine .inr ⟨data, key, wrapped.toBytes, w₃, ?_, (hsame.trans hsame').trans hsame'',
    hrun'.trans hrun''⟩
  rw [hbytes] at hverify ⊢
  exact makes_of_wrap hdata hload.1 (hload.2 signature hgives) hadmits hverify

/-! ## Runs -/

def ExitCode.ofResult : Except Failure Unit → ExitCode
  | .ok () => .success
  | .error _ => .failure

/-- A run of the program is one of its command. -/
theorem exists_run_runProgram {arguments : List String} {verbosity : Verbosity} {command : Command}
    (h : Invocation.parse arguments = .ok ⟨verbosity, some command⟩) (w : Workspace) :
    ∃ result w' w'', (command.run : Action Session Unit).runIn { w with verbosity } = (result, w') ∧
      (runProgram arguments : Session ExitCode).run w = (ExitCode.ofResult result, w'') ∧
      SameFiles w' w'' := by
  have hrun : (runProgram arguments : Session ExitCode).run w =
      ((command.run : Action Session Unit).run >>= fun result =>
        match result with
        | .ok () => return .success
        | .error failure => do
          Host.log ⟨.error, failure.message⟩
          return .failure).run { w with verbosity } := by
    unfold runProgram
    rw [h]
    rfl
  rw [hrun, StateT.run_bind]
  rcases hcommand : (command.run : Action Session Unit).runIn { w with verbosity } with ⟨result, w'⟩
  unfold runIn at hcommand
  rw [hcommand]
  cases result with
  | ok value => exact ⟨.ok (), w', w', rfl, rfl, .refl w'⟩
  | error failure =>
      exact ⟨.error failure, w', _, rfl, rfl, sameFiles_addLine w' ⟨.error, failure.message⟩⟩

/-- What is true of every run of a command is true of the program's run with it. -/
theorem exists_run_of_command {Ends : Files → Except Failure Unit → Workspace → Prop}
    {arguments : List String} {verbosity : Verbosity} {command : Command}
    (h : Invocation.parse arguments = .ok ⟨verbosity, some command⟩)
    (hcommand : ∀ w : Workspace, w.Fresh → ∃ result w',
      (command.run : Action Session Unit).runIn w = (result, w') ∧ Ends w.files result w')
    (hsame : ∀ {files result w w'}, Ends files result w → SameFiles w w' → Ends files result w')
    {w : Workspace} (hfresh : w.Fresh) :
    ∃ result after, (runProgram arguments : Session ExitCode).run w =
      (ExitCode.ofResult result, after) ∧ Ends w.files result after := by
  rcases exists_run_runProgram h w with ⟨result, w', after, hrun, hprogram, hlogged⟩
  rcases hcommand { w with verbosity } ⟨hfresh.temporaries_eq, hfresh.made_eq⟩ with
    ⟨result', w'', hrun', hends⟩
  cases hrun.symm.trans hrun'
  exact ⟨result, after, hprogram, hsame hends hlogged⟩

/-- What a command that signs leaves behind.  After a success, the image that it has made is under
its path, the last sector under the path for it, and nothing else has changed; after any run, an
image that the command has made is under the path, or all files are as before.  A signature from
elsewhere that is not one over the image is refused, and nothing is written. -/
structure SigningRun (stage : Stage) (source : SigningSource) (image signed : String)
    (sector : Option String) (before : Files) (code : ExitCode) (after : Workspace) : Prop where
  on_success : code = .success → ∃ data key bytes,
    Makes stage source image before data key bytes ∧
    after.files.contentOf signed = .ok bytes ∧
    (∀ path ∈ sector, after.files.contentOf path = .ok (lastSector bytes)) ∧
    (∀ location, before.targetOf signed ≠ .ok location →
      (∀ path ∈ sector, before.targetOf path ≠ .ok location) →
      after.tree.get? location = before.tree.get? location) ∧
    after.temporaries = []
  always : after.files = before ∨ ∃ data key bytes,
    Makes stage source image before data key bytes ∧ after.files.contentOf signed = .ok bytes
  refused : ∀ path certificate raw data key, source = .presigned path certificate →
    before.contentOf path = .ok raw → before.contentOf image = .ok data →
    before.CertificateKey certificate key →
    Pss.verify key.publicKey (Sha256.digest (stage.content data)) raw = false →
    code ≠ .success ∧ after.files = before

/-- A run that fails before anything is published. -/
theorem SigningRun.of_failure {stage : Stage} {source : SigningSource} {image signed : String}
    {sector : Option String} {before : Files} {after : Workspace} (h : after.files = before) :
    SigningRun stage source image signed sector before .failure after where
  on_success := nofun
  always := .inl h
  refused := fun _ _ _ _ _ _ _ _ _ _ => ⟨nofun, h⟩

/-- What is made has a signature that verifies. -/
theorem Makes.not_refused {stage : Stage} {source : SigningSource} {image : String} {files : Files}
    {data bytes : Bytes} {key : KeyRecord} (h : Makes stage source image files data key bytes)
    {path certificate : String} (hsource : source = .presigned path certificate) {raw : Bytes}
    (hraw : files.contentOf path = .ok raw) {data' : Bytes}
    (hdata : files.contentOf image = .ok data') {key' : KeyRecord}
    (hkey : files.CertificateKey certificate key') :
    Pss.verify key'.publicKey (Sha256.digest (stage.content data')) raw = true := by
  rcases h.presigned path certificate hsource with ⟨signature, hsignature, hverify⟩
  -- Both read the same files, and so the same signature, image and key.
  have hraws : raw = signature.toBytes := Except.ok.inj (hraw.symm.trans hsignature)
  have hdatas : data' = data := Except.ok.inj (hdata.symm.trans h.image_eq)
  have hkeys : key' = key := by
    have hcertificate : files.CertificateKey certificate key := by
      have hkeyIs := h.keyIs
      rw [hsource] at hkeyIs
      exact hkeyIs
    exact hkey.unique hcertificate
  rw [hraws, hdatas, hkeys]
  exact hverify

section Published

variable {files : Files} {product : Product} {signed : String} {sector : Option String}
  {bytes : Bytes}

/-- The two outputs belong to different places. -/
theorem pairwise_apart (h : ∀ path ∈ sector, files.Apart signed path) :
    ((⟨product, signed, bytes⟩ : Output) :: (sector.map (sectorOutput bytes)).toList).Pairwise
      fun output other => files.Apart output.path other.path := by
  cases sector with
  | none => exact List.pairwise_singleton _ _
  | some path =>
      refine List.pairwise_cons.2 ⟨?_, List.pairwise_singleton _ _⟩
      intro other hother
      rw [List.mem_singleton.1 hother]
      exact h path rfl

theorem SigningRun.of_published {stage : Stage} {source : SigningSource} {image : String}
    {w after : Workspace} {data : Bytes} {key : KeyRecord} {result : Except Failure Unit}
    {placed rest : List Output} (hmakes : Makes stage source image w.files data key bytes)
    (hapart : ∀ path ∈ sector, w.files.Apart signed path)
    (h : Published w (⟨product, signed, bytes⟩ :: (sector.map (sectorOutput bytes)).toList) []
      result after placed rest) :
    SigningRun stage source image signed sector w.files (ExitCode.ofResult result) after where
  on_success := by
    intro hcode
    have hresult : result = .ok () := by
      cases result with
      | ok value => rfl
      | error failure => cases hcode
    have hall : placed = ⟨product, signed, bytes⟩ :: (sector.map (sectorOutput bytes)).toList := by
      rw [← h.append_eq, h.ok_iff.1 hresult, List.append_nil]
    have hplaced := h.placed_eq
    rw [hall] at hplaced
    have hcontent := Files.contentOf_placeAll hplaced (pairwise_apart hapart)
    refine ⟨data, key, bytes, hmakes, hcontent ⟨product, signed, bytes⟩ List.mem_cons_self, ?_, ?_,
      h.temporaries_eq hresult⟩
    · intro path hpath
      have hmem : sectorOutput bytes path ∈ (sector.map (sectorOutput bytes)).toList := by
        rw [Option.mem_def.1 hpath]
        exact List.mem_singleton_self _
      have hread := hcontent (sectorOutput bytes path) (List.mem_cons_of_mem _ hmem)
      simp only [sectorOutput] at hread
      exact hread
    · intro location hsigned hsector
      refine Files.get?_placeAll hplaced ?_
      intro output houtput
      rcases List.mem_cons.1 houtput with rfl | houtput
      · exact hsigned
      · rcases Option.map_eq_some_iff.1 (Option.mem_toList.1 houtput) with ⟨path, hpath, rfl⟩
        exact hsector path hpath
  always := by
    have hplaced := h.placed_eq
    cases placed with
    | nil =>
        exact .inl (Except.ok.inj hplaced).symm
    -- The signed image is the first output, so it is in place as soon as anything is.
    | cons first more =>
        have happend := h.append_eq
        rw [List.cons_append] at happend
        have hfirst : first = ⟨product, signed, bytes⟩ := List.head_eq_of_cons_eq happend
        have hprefix : (first :: more).Sublist
            (⟨product, signed, bytes⟩ :: (sector.map (sectorOutput bytes)).toList) := by
          rw [← happend, ← List.cons_append]
          exact List.sublist_append_left _ rest
        have hcontent := Files.contentOf_placeAll hplaced ((pairwise_apart hapart).sublist hprefix)
          first List.mem_cons_self
        rw [hfirst] at hcontent
        exact .inr ⟨data, key, bytes, hmakes, hcontent⟩
  refused := by
    intro path certificate raw data' key' hsource hraw hdata hkey hsignature
    rw [hmakes.not_refused hsource hraw hdata hkey] at hsignature
    cases hsignature

end Published

theorem SigningRun.of_sameFiles {stage : Stage} {source : SigningSource} {image signed : String}
    {sector : Option String} {before : Files} {code : ExitCode} {w w' : Workspace}
    (h : SigningRun stage source image signed sector before code w) (hsame : SameFiles w w') :
    SigningRun stage source image signed sector before code w' := by
  have htree : w'.tree = w.tree := congrArg Files.tree hsame.files_eq
  refine ⟨?_, ?_, ?_⟩
  · rw [hsame.files_eq, hsame.temporaries_eq, htree]
    exact h.on_success
  · rw [hsame.files_eq]
    exact h.always
  · rw [hsame.files_eq]
    exact h.refused

/-- A command that fails before it publishes, or publishes what it has made, leaves behind what a
command that signs may leave behind. -/
theorem SigningRun.of_cases {stage : Stage} {source : SigningSource} {image signed : String}
    {sector : Option String} {product : Product} {command : Action Session Unit} {w : Workspace}
    (htemporaries : w.temporaries = []) (hapart : ∀ path ∈ sector, w.files.Apart signed path)
    (h : (∃ failure w', command.runIn w = (.error failure, w') ∧ SameFiles w w') ∨
      ∃ data key bytes w', Makes stage source image w.files data key bytes ∧ SameFiles w w' ∧
        command.runIn w = (publish (⟨product, signed, bytes⟩ ::
          (sector.map (sectorOutput bytes)).toList) []).runIn w') :
    ∃ result w', command.runIn w = (result, w') ∧
      SigningRun stage source image signed sector w.files (ExitCode.ofResult result) w' := by
  rcases h with ⟨failure, w', hrun, hsame⟩ | ⟨data, key, bytes, w₁, hmakes, hsame, hrun⟩
  · exact ⟨.error failure, w', hrun, .of_failure hsame.files_eq⟩
  -- The command has changed nothing before it publishes.
  · have hleft : w₁.temporaries = [] := hsame.temporaries_eq.trans htemporaries
    rcases publish_places (⟨product, signed, bytes⟩ :: (sector.map (sectorOutput bytes)).toList) []
      (numbered_of_temporaries hleft) with ⟨result, w', placed, rest, hpublish, hpublished⟩
    rw [hleft] at hpublished
    rw [← hsame.files_eq] at hmakes hapart ⊢
    exact ⟨result, w', hrun.trans hpublish, .of_published hmakes hapart hpublished⟩

/-- A run of the program leaves behind what its command leaves behind. -/
theorem exists_signingRun {stage : Stage} {source : SigningSource} {image signed : String}
    (sector : Option String) {product : Product} {command : Command} {verbosity : Verbosity}
    {arguments : List String} {w : Workspace} (htemporaries : w.temporaries = [])
    (hparse : Invocation.parse arguments = .ok ⟨verbosity, some command⟩)
    (hapart : ∀ path ∈ sector, w.files.Apart signed path)
    (hcases : ∀ w, (∃ failure w', (command.run : Action Session Unit).runIn w =
          (.error failure, w') ∧ SameFiles w w') ∨
        ∃ data key bytes w', Makes stage source image w.files data key bytes ∧ SameFiles w w' ∧
          (command.run : Action Session Unit).runIn w = (publish (⟨product, signed, bytes⟩ ::
            (sector.map (sectorOutput bytes)).toList) []).runIn w') :
    ∃ code after, (runProgram arguments : Session ExitCode).run w = (code, after) ∧
      SigningRun stage source image signed sector w.files code after := by
  rcases exists_run_runProgram hparse w with ⟨result, w', w'', hcommand, hprogram, hsame⟩
  rcases SigningRun.of_cases (w := { w with verbosity }) htemporaries hapart (hcases _) with
    ⟨result', w₁, hcommand', hsigning⟩
  cases hcommand.symm.trans hcommand'
  exact ⟨_, w'', hprogram, hsigning.of_sameFiles hsame⟩

/-- Whatever files there are, and whatever fails on the machine, a command that signs leaves only
verified images behind. -/
theorem signing_commands_verified (tree : FileTree) (current : Location) (salts : Nat → Salt)
    (faults : Faults) (arguments : List String) (verbosity : Verbosity) (source : SigningSource)
    (image signed : String) :
    (∀ sector : Option String,
      Invocation.parse arguments =
        .ok ⟨verbosity, some (.signBoot source sector image signed)⟩ →
      (∀ path ∈ sector, (⟨tree, current, faults⟩ : Files).Apart signed path) →
      ∃ code after, (runProgram arguments : Session ExitCode).run
          (Workspace.start tree current salts faults) = (code, after) ∧
        SigningRun .boot source image signed sector ⟨tree, current, faults⟩ code after) ∧
    (Invocation.parse arguments = .ok ⟨verbosity, some (.signOta source image signed)⟩ →
      ∃ code after, (runProgram arguments : Session ExitCode).run
          (Workspace.start tree current salts faults) = (code, after) ∧
        SigningRun .ota source image signed none ⟨tree, current, faults⟩ code after) := by
  refine ⟨?_, ?_⟩
  · intro sector hparse hapart
    exact exists_signingRun sector (w := .start tree current salts faults) rfl hparse hapart
      fun w => Command.runSignBoot_cases source sector image signed w
  · intro hparse
    exact exists_signingRun none (w := .start tree current salts faults) rfl hparse nofun
      fun w => Command.runSignOta_cases source image signed w

/-! ### A sample -/

/-- A disk on which there is no room once so many temporary files have been written. -/
def Faults.fullAfter (count : Nat) : Faults :=
  { Faults.empty with
    writes := fun made =>
      if count < made then some ⟨.other "No space left on device (os error 28)", 16⟩ else none }

/-- A directory with a public key, a signature and an empty image, and another directory in it. -/
def sampleTree (signature : Bytes) : FileTree :=
  ⟨[(["c"], .file sampleCertificate), (["s"], .file signature), (["i"], .file []),
    (["d"], .directory)]⟩

def sampleDirectory (signature : Signature) (faults : Faults) : Workspace :=
  .start (sampleTree signature.toBytes) [] (fun _ => Octets.fill 32 0) faults

/-- With some signature, the image is signed and comes to be published, whatever fails. -/
theorem exists_sampleDirectory :
    ∃ (signature : Signature) (key : KeyRecord),
      (∀ faults, (sampleDirectory signature faults).files.CertificateKey "c" key) ∧
      key.publicKey = Rsa.sampleKey.toPublicKey ∧
      ∀ (faults : Faults) (arguments : List String) (signed sector : String),
        Invocation.parse arguments = .ok ⟨.regular,
          some (.signBoot (.presigned "s" "c") (some sector) "i" signed)⟩ →
        ∃ result after first second, (runProgram arguments : Session ExitCode).run
            (sampleDirectory signature faults) = (ExitCode.ofResult result, after) ∧
          Ending (sampleDirectory signature faults).files [first, second] result after ∧
          first.path = signed ∧ second.path = sector := by
  rcases KeyRecord.exists_rsaKey Rsa.usable_sampleKey with ⟨key, hcreate, hkey⟩
  rcases SigningKey.exists_ofPrivateKey Rsa.usable_sampleKey with ⟨signing, -, hsigning⟩
  rcases SigningKey.exists_signature (hsigning ▸ Rsa.usable_sampleKey) (Octets.fill 32 0)
    (Sha256.digest (Image.align [])) with ⟨signature, -, hsignature⟩
  rw [hsigning] at hsignature
  have hcertificate : ∀ faults,
      (sampleDirectory signature faults).files.CertificateKey "c" key :=
    fun _ => ⟨sampleCertificate, rfl, load_sampleCertificate hcreate⟩
  refine ⟨signature, key, hcertificate, (KeyRecord.eq_publicKey_of_rsaKey hkey).symm, ?_⟩
  intro faults arguments signed sector hparse
  have hfile : (sampleDirectory signature faults).files.contentOf "s" = .ok signature.toBytes := rfl
  have himage : (sampleDirectory signature faults).files.contentOf "i" = .ok [] := rfl
  rcases exists_run_runProgram hparse (sampleDirectory signature faults) with
    ⟨result, w', after, hcommand, hprogram, hsame⟩
  rcases Command.exists_ending_runSignBoot signed (some sector)
    (w := { sampleDirectory signature faults with verbosity := .regular }) ⟨rfl, rfl⟩
    (hcertificate faults) hfile himage hkey hsignature with
    ⟨outputs, result', w₁, hpaths, hrun, hending⟩
  cases hcommand.symm.trans hrun
  rcases List.map_eq_cons_iff.1 hpaths with ⟨first, more, rfl, hfirst, hmore⟩
  rcases List.map_eq_singleton_iff.1 hmore with ⟨second, rfl, hsecond⟩
  exact ⟨result, after, first, second, hprogram, hending.of_sameFiles hsame, hfirst, hsecond⟩

/-- A signature over the empty image signs it, and the signature sector is beside it; an empty file
is not a signature.  Where there is no room for the sector, nothing comes of it. -/
theorem signing_commands_verified_sampleTree :
    ∃ (signature : Signature) (key : KeyRecord) (bytes : Bytes) (code : ExitCode)
        (signed refused stopped : Workspace),
      let start := sampleDirectory signature .empty
      let full := sampleDirectory signature (.fullAfter 1)
      (runProgram ["sign-boot", "-g", "s", "-c", "c", "-b", "b", "i", "o"] : Session ExitCode).run
          start = (.success, signed) ∧
        Makes .boot (.presigned "s" "c") "i" start.files [] key bytes ∧
        signed.files.contentOf "o" = .ok bytes ∧
        signed.files.contentOf "b" = .ok (lastSector bytes) ∧
        (runProgram ["sign-ota", "-g", "i", "-c", "c", "i", "o"] : Session ExitCode).run
          start = (code, refused) ∧
        code ≠ .success ∧ refused.files = start.files ∧
        (runProgram ["sign-boot", "-g", "s", "-c", "c", "-b", "b", "i", "o"] :
          Session ExitCode).run full = (.failure, stopped) ∧
        stopped.files = full.files ∧ stopped.temporaries = [] := by
  rcases exists_sampleDirectory with ⟨signature, key, hcertificate, hpublic, hsigning⟩
  let start := sampleDirectory signature .empty
  have hboot : Invocation.parse ["sign-boot", "-g", "s", "-c", "c", "-b", "b", "i", "o"] =
      .ok ⟨.regular, some (.signBoot (.presigned "s" "c") (some "b") "i" "o")⟩ := by
    decide +kernel
  have hota : Invocation.parse ["sign-ota", "-g", "i", "-c", "c", "i", "o"] =
      .ok ⟨.regular, some (.signOta (.presigned "i" "c") "i" "o")⟩ := by
    decide +kernel
  have himage : start.files.contentOf "i" = .ok [] := rfl
  have hapart : ∀ path ∈ some "b", start.files.Apart "o" path := by
    intro path hpath
    cases hpath
    have hsigned : start.files.targetOf "o" = .ok ["o"] := rfl
    have hsector : start.files.targetOf "b" = .ok ["b"] := rfl
    exact Files.apart_of_targetOf hsigned hsector (by decide)
  rcases (signing_commands_verified start.tree [] start.salts .empty _ _ (.presigned "s" "c") "i"
    "o").1 (some "b") hboot hapart with ⟨code, signed, hsigned, hrun⟩
  rcases (signing_commands_verified start.tree [] start.salts .empty _ _ (.presigned "i" "c") "i"
    "o").2 hota with ⟨code', refused, hrefused, hrun'⟩
  -- The signature verifies and there is a place for both outputs, so the first run succeeds.
  have hsuccess : code = .success := by
    rcases hsigning .empty _ _ _ hboot with
      ⟨result, after, first, second, hprogram, hending, hfirst, hsecond⟩
    have hplace : ∀ output ∈ [first, second], start.files.Placeable output.path := by
      refine List.forall_mem_cons.2 ⟨?_, List.forall_mem_singleton.2 ?_⟩
      · rw [hfirst]
        exact ⟨⟨_, _, rfl, rfl⟩, _, rfl⟩
      · rw [hsecond]
        exact ⟨⟨_, _, rfl, rfl⟩, _, rfl⟩
    rw [hending.eq_ok_of_placeable (Faults.spares_empty 0 2) hplace] at hprogram
    cases hprogram.symm.trans hsigned
    rfl
  rcases hrun.on_success hsuccess with ⟨data, key', bytes, hmakes, hbytes, hsector, -, -⟩
  have hdata : data = [] := (Except.ok.inj (himage.symm.trans hmakes.image_eq)).symm
  have hempty : Pss.verify Rsa.sampleKey.toPublicKey (Sha256.digest []) [] = false := by
    decide +kernel
  have hnone := hrun'.refused "i" "c" [] [] key rfl himage himage (hcertificate .empty)
    (hpublic ▸ hempty)
  -- On the other disk there is room for the signed image, but not for its sector.
  rcases hsigning (.fullAfter 1) _ _ _ hboot with
    ⟨result, stopped, first, second, hstopped, hending, -⟩
  have hfull : ¬(Faults.fullAfter 1).Spares 0 2 := fun hspares => nomatch hspares.2.1.write
  rcases hending.unchanged_of_not_spares hfull with ⟨⟨failure, rfl⟩, hfiles, hleft⟩
  rw [hsuccess] at hsigned
  rw [hdata] at hmakes
  exact ⟨signature, key', bytes, code', signed, refused, stopped, hsigned, hmakes, hbytes,
    hsector "b" rfl, hrefused, hnone.1, hnone.2, hstopped, hfiles, hleft⟩

end SecureBoot
