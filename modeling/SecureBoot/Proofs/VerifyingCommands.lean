import SecureBoot.Proofs.Arguments
import SecureBoot.Proofs.Reports

/-!
# VerifyingCommands — which images the commands that verify accept, and what they say

A command that verifies reads its certificate and then its images, one after the other, up to the
first that is not accepted.

* `VerifyingRun` is what the images come to: `VerifyingRun.cons` and `VerifyingRun.refused` are the
  two ways to take one more image, and `exists_verifyingRun` is the induction along them.
* `exists_tells_runVerify` puts the certificate in front of the images.
* `verifying_fails_closed` says which exit code and which reports that gives.
-/

namespace SecureBoot

open SecureBoot.Action Workspace

/-! ## What is accepted -/

namespace Files

/-- The key that a certificate or a file with a public key holds, if it can be read and loaded. -/
def certificateKey? (files : Files) (certificate : String) : Option KeyRecord :=
  match files.contentOf certificate with
  | .ok data => (KeyRecord.load (KeyFormat.detect data) data).toOption
  | .error _ => none

theorem certificateKey?_eq_some_iff {files : Files} {certificate : String} {key : KeyRecord} :
    files.certificateKey? certificate = some key ↔ files.CertificateKey certificate key := by
  unfold certificateKey? CertificateKey
  cases h : files.contentOf certificate with
  | error fault => simp
  | ok data =>
      cases hload : KeyRecord.load (KeyFormat.detect data) data <;>
        simp [hload, Except.toOption]

/-- Whether the image in a file can be read and verifies under a key. -/
def accepts (files : Files) (stage : Stage) (key : KeyRecord) (image : String) : Bool :=
  match files.contentOf image with
  | .ok data => (stage.verify data key).isOk
  | .error _ => false

theorem accepts_iff {files : Files} {stage : Stage} {key : KeyRecord} {image : String} :
    files.accepts stage key image = true ↔
      ∃ data block, files.contentOf image = .ok data ∧ stage.verify data key = .ok block := by
  unfold accepts
  cases h : files.contentOf image with
  | error fault => simp
  | ok data => cases hverify : stage.verify data key <;> simp [hverify, Except.isOk, Except.toBool]

/-- Whether the image in a file verifies under the key of a certificate. -/
def acceptsUnder (files : Files) (stage : Stage) (certificate image : String) : Bool :=
  (files.certificateKey? certificate).any fun key => files.accepts stage key image

end Files

/-! ## Images, one after the other -/

/-- What verifying some images comes to: its result, and the lines that it adds to the log. -/
structure VerifyingRun (stage : Stage) (accepts : String → Bool) (images : List String)
    (result : Except Failure Unit) (lines : List LogLine) : Prop where
  ok_iff : result = .ok () ↔ ∀ image ∈ images, accepts image = true
  reports_eq {verbosity : Verbosity} : verbosity ≠ .silent →
    stage.reports verbosity lines = images.takeWhile accepts
  failure_quiet {failure : Failure} : result = .error failure →
    stage.verifiedImage? failure.message = none

namespace VerifyingRun

variable {stage : Stage} {accepts : String → Bool} {image : String} {images : List String}
  {result : Except Failure Unit} {lines lines' : List LogLine}

theorem nil (stage : Stage) (accepts : String → Bool) :
    VerifyingRun stage accepts [] (.ok ()) [] where
  ok_iff := iff_of_true rfl (List.forall_mem_nil _)
  reports_eq _ := rfl
  failure_quiet := nofun

/-- An accepted image is reported, and the images behind it decide. -/
theorem cons (h : accepts image = true) (hquiet : stage.Quiet lines)
    (hrest : VerifyingRun stage accepts images result lines') :
    VerifyingRun stage accepts (image :: images) result
      (lines ++ Report.imageVerified stage image :: lines') where
  ok_iff := by
    rw [hrest.ok_iff, List.forall_mem_cons]
    exact (and_iff_right h).symm
  reports_eq {verbosity} hverbosity := by
    calc stage.reports verbosity (lines ++ Report.imageVerified stage image :: lines')
      _ = stage.reports verbosity lines ++ (stage.reports verbosity
            [Report.imageVerified stage image] ++ stage.reports verbosity lines') := by
          rw [← Stage.reports_append, ← Stage.reports_append, List.singleton_append]
      _ = image :: images.takeWhile accepts := by
          rw [Stage.reports_of_quiet hquiet, Stage.reports_imageVerified hverbosity,
            hrest.reports_eq hverbosity, List.nil_append, List.singleton_append]
      _ = (image :: images).takeWhile accepts := (List.takeWhile_cons_of_pos h).symm
  failure_quiet := hrest.failure_quiet

/-- Behind an image that is not accepted nothing is looked at. -/
theorem refused {failure : Failure} (h : accepts image = false) (hquiet : stage.Quiet lines)
    (hfailure : stage.verifiedImage? failure.message = none) :
    VerifyingRun stage accepts (image :: images) (.error failure) lines where
  ok_iff := by
    refine iff_of_false nofun ?_
    intro hall
    rw [hall image List.mem_cons_self] at h
    cases h
  reports_eq {verbosity} _ := by
    rw [Stage.reports_of_quiet hquiet, List.takeWhile_cons_of_neg (by rw [h]; decide)]
  failure_quiet heq := by
    cases heq
    exact hfailure

end VerifyingRun

namespace Action

variable {files : Files}

theorem tells_loadImage (image : String) (files : Files) :
    (loadImage image : Action Session Bytes).Tells files
      ((files.contentOf image).mapError (Stage.unreadable (files.locate image))) [] :=
  (tells_locate image files).bind
    (tells_readFile image (Stage.unreadable (files.locate image)) files)

theorem tells_verifyImage (stage : Stage) (data : Bytes) (trusted : KeyRecord)
    (failure : Fault Empty → Failure) (files : Files) :
    ∃ lines, stage.Quiet lines ∧
      (verifyImage stage data trusted failure : Action Session SignatureBlock).Tells files
        ((stage.verify data trusted).mapError failure) lines := by
  have hchecked := tells_say (Report.blockChecked stage data) files
  have hquiet : stage.Quiet (Report.blockChecked stage data) := Stage.quiet_blockChecked data
  cases hverify : stage.verify data trusted with
  | error fault =>
      refine ⟨_, Stage.quiet_append hquiet (Stage.quiet_nil stage), ?_⟩
      exact hchecked.bind (tells_ofResult_of_error hverify failure files).bind_of_error
  | ok block =>
      refine ⟨_, Stage.quiet_append hquiet (Stage.quiet_signatureVerified data), ?_⟩
      refine hchecked.bind ((tells_ofResult_of_ok hverify failure files).bind ?_)
      exact (tells_say [Report.signatureVerified stage data] files).bind (Tells.pure block files)

/-- Verify an image, and say so. -/
def verifyFile (stage : Stage) (certificate : String) (trusted : KeyRecord) (image : String) :
    Action Session Unit := do
  say [Report.verifyingImage stage image]
  let data ← loadImage image
  let _ ← verifyImage stage data trusted (.notSigned image certificate)
  say [Report.imageVerified stage image]

/-- One image is accepted and reported, or it is the reason to give up. -/
theorem tells_verifyFile (stage : Stage) (certificate : String) (key : KeyRecord) (image : String)
    (files : Files) :
    ∃ lines, stage.Quiet lines ∧
      if files.accepts stage key image then
        (verifyFile stage certificate key image).Tells files (.ok ())
          (lines ++ [Report.imageVerified stage image])
      else
        ∃ failure, stage.verifiedImage? failure.message = none ∧
          (verifyFile stage certificate key image).Tells files (.error failure) lines := by
  have hsaid := tells_say [Report.verifyingImage stage image] files
  have hload := tells_loadImage image files
  cases hdata : files.contentOf image with
  -- What cannot be read is refused before anything of it is looked at.
  | error fault =>
      rw [hdata] at hload
      have haccepts : files.accepts stage key image = false := by
        rw [Files.accepts, hdata]
      rw [haccepts]
      exact ⟨_, Stage.quiet_append (Stage.quiet_verifyingImage image) (Stage.quiet_nil stage), _,
        Stage.verifiedImage?_unreadable _ fault, hsaid.bind hload.bind_of_error⟩
  | ok data =>
      rw [hdata] at hload
      have haccepts : files.accepts stage key image = (stage.verify data key).isOk := by
        rw [Files.accepts, hdata]
      rw [haccepts]
      rcases tells_verifyImage stage data key (.notSigned image certificate) files with
        ⟨lines, hquiet, hverified⟩
      have hquiet' : stage.Quiet ([Report.verifyingImage stage image] ++ ([] ++ lines)) :=
        Stage.quiet_append (Stage.quiet_verifyingImage image) hquiet
      refine ⟨_, hquiet', ?_⟩
      cases hverify : stage.verify data key with
      | error fault =>
          rw [hverify] at hverified
          exact ⟨_, Stage.verifiedImage?_notSigned image certificate fault,
            hsaid.bind (hload.bind hverified.bind_of_error)⟩
      | ok block =>
          rw [hverify] at hverified
          rw [List.append_assoc, List.append_assoc]
          exact hsaid.bind (hload.bind (hverified.bind
            (tells_say [Report.imageVerified stage image] files)))

/-- Images are verified one after the other, and the first that is not accepted is the last. -/
theorem exists_verifyingRun (stage : Stage) (certificate : String) (key : KeyRecord)
    (images : List String) (files : Files) :
    ∃ result lines,
      (images.forM (verifyFile stage certificate key) : Action Session Unit).Tells files result
        lines ∧ VerifyingRun stage (files.accepts stage key) images result lines := by
  induction images with
  | nil => exact ⟨_, _, Tells.pure () files, .nil stage _⟩
  | cons image images ih =>
      rcases tells_verifyFile stage certificate key image files with ⟨lines, hquiet, hfile⟩
      cases haccepts : files.accepts stage key image with
      -- What is said of this image stands in front of what is said of the others.
      | true =>
          rw [haccepts] at hfile
          rcases ih with ⟨result, lines', hrest, hrun⟩
          have hlines := List.append_cons lines (Report.imageVerified stage image) lines'
          refine ⟨result, _, ?_, .cons haccepts hquiet hrun⟩
          rw [hlines]
          exact hfile.bind hrest
      | false =>
          rw [haccepts] at hfile
          rcases hfile with ⟨failure, hfailure, hfile⟩
          exact ⟨_, lines, hfile.bind_of_error, .refused haccepts hquiet hfailure⟩

/-- The certificate is loaded in front of all images. -/
theorem tells_loadCertificate (stage : Stage) (certificate : String) (files : Files) :
    let action : Action Session KeyRecord := loadCertificate certificate
    (∃ key lines, files.certificateKey? certificate = some key ∧ stage.Quiet lines ∧
        action.Tells files (.ok key) lines) ∨
      ∃ failure, files.certificateKey? certificate = none ∧
        stage.verifiedImage? failure.message = none ∧ action.Tells files (.error failure) [] := by
  have hlocate := tells_locate certificate files
  have hread := tells_readFile certificate
    (fun fault => .loadCertificate (files.locate certificate) fault.error) files
  cases hdata : files.contentOf certificate with
  | error fault =>
      rw [hdata] at hread
      refine .inr ⟨_, by rw [Files.certificateKey?, hdata],
        Stage.verifiedImage?_loadCertificate _ fault, hlocate.bind hread.bind_of_error⟩
  | ok data =>
      rw [hdata] at hread
      have hkey : files.certificateKey? certificate =
          (KeyRecord.load (KeyFormat.detect data) data).toOption := by
        rw [Files.certificateKey?, hdata]
      cases hload : KeyRecord.load (KeyFormat.detect data) data with
      | error fault =>
          rw [hload] at hkey
          exact .inr ⟨_, hkey, Stage.verifiedImage?_parseCertificate _ fault,
            hlocate.bind (hread.bind (tells_ofResult_of_error hload _ files).bind_of_error)⟩
      | ok key =>
          rw [hload] at hkey
          refine .inl ⟨key, _, hkey, Stage.quiet_append
            (Stage.quiet_certificateLoaded key (files.locate certificate)) (Stage.quiet_nil stage),
            hlocate.bind (hread.bind ((tells_ofResult_of_ok hload _ files).bind ?_))⟩
          exact (tells_say _ files).bind (Tells.pure key files)

/-- A command that verifies succeeds if the certificate can be loaded and all images are accepted
under its key; it reports the images in front of the first that is not. -/
theorem exists_tells_runVerify (stage : Stage) (certificate : String) (images : List String)
    (files : Files) :
    ∃ result lines,
      (Command.runVerify stage certificate images : Action Session Unit).Tells files result lines ∧
      (result = .ok () ↔ ∃ key, files.CertificateKey certificate key ∧
        ∀ image ∈ images, files.accepts stage key image = true) ∧
      (∀ verbosity, verbosity ≠ .silent → stage.reports verbosity lines =
        images.takeWhile (files.acceptsUnder stage certificate)) ∧
      ∀ failure, result = .error failure → stage.verifiedImage? failure.message = none := by
  have hrun : (Command.runVerify stage certificate images : Action Session Unit) =
      loadCertificate certificate >>= fun key => images.forM (verifyFile stage certificate key) :=
    rfl
  simp only [← Files.certificateKey?_eq_some_iff]
  rcases tells_loadCertificate stage certificate files with
    ⟨key, lines, hkey, hquiet, hload⟩ | ⟨failure, hkey, hfailure, hload⟩
  · rcases exists_verifyingRun stage certificate key images files with
      ⟨result, lines', hverify, hrun'⟩
    have haccepts : files.acceptsUnder stage certificate = files.accepts stage key := by
      funext image
      rw [Files.acceptsUnder, hkey, Option.any_some]
    refine ⟨result, lines ++ lines', hrun ▸ hload.bind hverify, ?_, ?_, ?_⟩
    · rw [hrun'.ok_iff, hkey]
      simp
    · intro verbosity hverbosity
      rw [Stage.reports_append, Stage.reports_of_quiet hquiet, hrun'.reports_eq hverbosity,
        haccepts, List.nil_append]
    · intro failure hfailure
      exact hrun'.failure_quiet hfailure
  · refine ⟨.error failure, [], hrun ▸ hload.bind_of_error, ?_, ?_, ?_⟩
    · rw [hkey]
      simp
    -- Without a key there is no image to report.
    · intro verbosity _
      cases images with
      | nil => rfl
      | cons image images =>
          rw [List.takeWhile_cons_of_neg (by simp [Files.acceptsUnder, hkey])]
          rfl
    · rintro _ ⟨⟩
      exact hfailure

end Action

/-! ## Runs -/

theorem code_ofResult (result : Except Failure Unit) :
    ((ExitCode.ofResult result).toNat = 0 ↔ result = .ok ()) ∧
      ((ExitCode.ofResult result).toNat = 0 ∨ (ExitCode.ofResult result).toNat = 1) := by
  cases result <;> simp [ExitCode.ofResult, ExitCode.toNat]

/-- Whatever files there are, a command that verifies succeeds only if the certificate can be
loaded and every image verifies under its key.  It reports the images up to the first that does
not, and it changes no file.  Every such command can be asked for. -/
theorem verifying_fails_closed (tree : FileTree) (current : Location) (salts : Nat → Salt)
    (faults : Faults) (stage : Stage) (verbosity : Verbosity) (certificate : String)
    (images : List String) :
    (certificate ≠ "" → images ≠ [] → (∀ image ∈ images, image ≠ "") →
      ∃ arguments, Invocation.parse arguments =
        .ok ⟨verbosity, some (stage.verifyCommand certificate images)⟩) ∧
    ∀ arguments,
      Invocation.parse arguments =
        .ok ⟨verbosity, some (stage.verifyCommand certificate images)⟩ →
      ∃ code after,
        (runProgram arguments : Session ExitCode).run
            (Workspace.start tree current salts faults) = (code, after) ∧
        (code.toNat = 0 ↔ ∃ key, (⟨tree, current, faults⟩ : Files).CertificateKey certificate key ∧
          ∀ image ∈ images, ∃ data block,
            (⟨tree, current, faults⟩ : Files).contentOf image = .ok data ∧
            stage.verify data key = .ok block) ∧
        (code.toNat = 0 ∨ code.toNat = 1) ∧
        (verbosity ≠ .silent → after.log.filterMap stage.verifiedImage? =
          images.takeWhile ((⟨tree, current, faults⟩ : Files).acceptsUnder stage certificate)) ∧
        after.files = ⟨tree, current, faults⟩ ∧ after.temporaries = [] := by
  constructor
  · intro hcertificate hsome himages
    exact ⟨_, Invocation.parse_verifyArguments stage verbosity hcertificate hsome himages⟩
  intro arguments hparse
  rcases exists_tells_runVerify stage certificate images ⟨tree, current, faults⟩ with
    ⟨result, lines, htells, hok, hreports, hquiet⟩
  have hcommand : ((stage.verifyCommand certificate images).run : Action Session Unit) =
      Command.runVerify stage certificate images := by
    cases stage <;> rfl
  have hrun := run_runProgram_of_tells (w := .start tree current salts faults) hparse
    (hcommand ▸ htells)
  rcases code_ofResult result with ⟨hzero, hcode⟩
  have hsame := sameFiles_addLines ({ Workspace.start tree current salts faults with verbosity })
    (lines ++ failureLines result)
  refine ⟨_, _, hrun, ?_, hcode, ?_, hsame.files_eq, hsame.temporaries_eq⟩
  · simp only [hzero, hok, Files.accepts_iff]
  · intro hverbosity
    -- The line about the failure is no report, so the reports are those of the command.
    have hfailure : stage.Quiet (failureLines result) := by
      cases result with
      | ok value => exact Stage.quiet_nil stage
      | error failure => exact Stage.quiet_cons (hquiet failure rfl) (Stage.quiet_nil stage)
    have hlog := log_addLines (w := { Workspace.start tree current salts faults with verbosity })
      rfl (lines ++ failureLines result)
    calc _ = stage.reports verbosity (lines ++ failureLines result) :=
          congrArg (List.filterMap stage.verifiedImage?) hlog
      _ = stage.reports verbosity lines := by
          rw [Stage.reports_append, Stage.reports_of_quiet hfailure, List.append_nil]
      _ = _ := hreports verbosity hverbosity

/-- A list with an empty file in the middle ends there, although the image in front of it is signed
and stands behind it too; the signed image alone passes.  Names with dashes in front are no
obstacle. -/
theorem verifying_fails_closed_emptyFile :
    ∃ (tree : FileTree) (code code' : ExitCode) (refused passed : Workspace),
      let start := Workspace.start tree [] fun _ => Octets.fill 32 0
      (runProgram ["verify-boot", "-c", "c", "g", "x", "g"] : Session ExitCode).run start =
        (code, refused) ∧
      code.toNat = 1 ∧ refused.log.filterMap Stage.boot.verifiedImage? = ["g"] ∧
      refused.files = start.files ∧
      (runProgram ["verify-boot", "-c", "c", "g"] : Session ExitCode).run start =
        (code', passed) ∧
      code'.toNat = 0 ∧ passed.log.filterMap Stage.boot.verifiedImage? = ["g"] ∧
      ∃ arguments, Invocation.parse arguments =
        .ok ⟨.verbose, some (Stage.ota.verifyCommand "-c" ["-x", "--"])⟩ := by
  rcases KeyRecord.exists_rsaKey Rsa.usable_sampleKey with ⟨key, hcreate, hkey⟩
  rcases SigningKey.exists_ofPrivateKey Rsa.usable_sampleKey with ⟨signing, -, hsigning⟩
  rcases SigningKey.exists_signature (hsigning ▸ Rsa.usable_sampleKey) (Octets.fill 32 0)
    (Sha256.digest (Stage.boot.content [])) with ⟨signature, -, hsignature⟩
  rw [hsigning] at hsignature
  let image := Stage.boot.wrap [] key signature
  let files : Files :=
    ⟨⟨[(["c"], .file sampleCertificate), (["g"], .file image), (["x"], .file [])]⟩, [], .empty⟩
  have hcertificate : files.CertificateKey "c" key :=
    ⟨sampleCertificate, rfl, load_sampleCertificate hcreate⟩
  have hsigned : files.accepts .boot key "g" = true :=
    Files.accepts_iff.2 ⟨image, _, rfl, Stage.verify_wrap_of_signature trivial hkey hsignature⟩
  have hempty : files.accepts .boot key "x" = false := rfl
  have haccepts : files.acceptsUnder .boot "c" = files.accepts .boot key := by
    funext name
    rw [Files.acceptsUnder, Files.certificateKey?_eq_some_iff.2 hcertificate, Option.any_some]
  have hlist : Invocation.parse ["verify-boot", "-c", "c", "g", "x", "g"] =
      .ok ⟨.regular, some (Stage.boot.verifyCommand "c" ["g", "x", "g"])⟩ := by
    decide +kernel
  have hone : Invocation.parse ["verify-boot", "-c", "c", "g"] =
      .ok ⟨.regular, some (Stage.boot.verifyCommand "c" ["g"])⟩ := by
    decide +kernel
  rcases (verifying_fails_closed files.tree [] (fun _ => Octets.fill 32 0) .empty .boot .regular "c"
    ["g", "x", "g"]).2 _ hlist with ⟨code, refused, hrun, hzero, hcode, hreports, hfiles, -⟩
  rcases (verifying_fails_closed files.tree [] (fun _ => Octets.fill 32 0) .empty .boot .regular "c"
    ["g"]).2 _ hone with ⟨code', passed, hrun', hzero', -, hreports', -, -⟩
  -- Names that look like options can be asked for too.
  have hdashes := (verifying_fails_closed files.tree [] (fun _ => Octets.fill 32 0) .empty .ota
    .verbose "-c" ["-x", "--"]).1 (by decide) (by decide) (by decide)
  refine ⟨files.tree, code, code', refused, passed, hrun, ?_, ?_, hfiles, hrun', ?_, ?_, hdashes⟩
  · refine hcode.resolve_left ?_
    intro hsuccess
    rcases hzero.1 hsuccess with ⟨other, -, himages⟩
    rcases himages "x" (by simp) with ⟨data, block, hdata, hblock⟩
    cases hdata
    cases hblock
  · refine (hreports (by decide)).trans ?_
    rw [show (⟨files.tree, [], .empty⟩ : Files) = files from rfl, haccepts]
    simp [List.takeWhile, hsigned, hempty]
  · refine hzero'.2 ⟨key, hcertificate, ?_⟩
    intro name hname
    rw [List.mem_singleton.1 hname]
    exact Files.accepts_iff.1 hsigned
  · refine (hreports' (by decide)).trans ?_
    rw [show (⟨files.tree, [], .empty⟩ : Files) = files from rfl, haccepts]
    simp [List.takeWhile, hsigned]

end SecureBoot
