import SecureBoot.Proofs.Directories
import SecureBoot.Proofs.Path
import SecureBoot.Proofs.SigningCommands

/-!
# Simulation — what a simulated signing delivers

A simulation signs a boot loader and a firmware for booting, signs the signed firmware once more as
an update, and saves the three images in a directory.  It fails without a change, or has made images
that verify and hold what was signed (`Simulation.Makes`, `Simulation.goesOnAs_save`).  Saving makes
the directory, and then publishes the images as outputs (`Simulation.Ends`).

The names of the outputs come from the stems of the two files.  A signed image never has the name of
an update (`Simulation.signed_ne_update`), but the two signed images have one name if the stems are
the same: then the later one, the firmware, is what is found there (`Simulation.contentOf_outputs`).
-/

namespace SecureBoot

open SecureBoot.Action Workspace

/-! ## Signed images -/

namespace Stage

/-- A signed image with this content: it verifies under the key, with the block that is in it. -/
def Carries (stage : Stage) (bytes content : Bytes) (trusted : KeyRecord) : Prop :=
  ∃ block, stage.verify bytes trusted = .ok block ∧ stage.undo bytes = .ok (content, block)

theorem carries_wrap {stage : Stage} {buffer : Bytes} {key trusted : KeyRecord}
    {signature : Signature} {block : SignatureBlock} (h : stage.Admits buffer)
    (hverify : stage.verify (stage.wrap buffer key signature) trusted = .ok block) :
    stage.Carries (stage.wrap buffer key signature) (stage.content buffer) trusted := by
  refine ⟨block, hverify, ?_⟩
  rw [(of_verify_wrap h hverify).1]
  exact undo_wrap buffer key signature h

end Stage

namespace Action

/-- A boot-signed image that a command makes carries the padded image. -/
theorem finds_makeBootImage_carries (material : SigningMaterial) (image : String)
    (key trusted : KeyRecord) :
    (makeBootImage image key material.signer trusted :
      Action Session (BootImage × SignatureBlock)).Finds fun files made =>
        ∃ data, files.contentOf image = .ok data ∧
          Stage.boot.Carries made.1.toBytes (Image.align data) trusted := by
  refine (finds_makeBootImage material.finds_signer image key trusted).mono ?_
  rintro files made ⟨data, signature, hdata, -, hbytes, hverify⟩
  rw [hbytes] at hverify ⊢
  exact ⟨data, hdata, Stage.carries_wrap (Stage.admits_boot data) hverify⟩

/-- An OTA-signed image that a command makes carries what was signed, octet for octet. -/
theorem finds_makeOtaImage_carries (material : SigningMaterial) (image : String) (body : Bytes)
    (key trusted : KeyRecord) :
    (makeOtaImage image body key material.signer trusted : Action Session OtaImage).Finds
      fun _ made => Stage.ota.Carries made.toBytes body trusted := by
  refine (finds_makeOtaImage material.finds_signer image body key trusted).mono ?_
  rintro files made ⟨hadmits, signature, block, -, hbytes, hverify⟩
  rw [hbytes] at hverify ⊢
  exact Stage.carries_wrap hadmits hverify

end Action

namespace Simulation

def bootSource (simulation : Simulation) : KeySource :=
  ⟨simulation.bootKey, simulation.encoding, none⟩

def otaSource (simulation : Simulation) : KeySource :=
  ⟨simulation.otaKey, simulation.encoding, none⟩

/-- A signed image that carries the image in a file and verifies under the key for booting. -/
def BootSigned (simulation : Simulation) (files : Files) (image : String) (bytes : Bytes) : Prop :=
  ∃ data key, files.contentOf image = .ok data ∧
    files.TrustedKey simulation.bootCertificate simulation.bootSource key ∧
    Stage.boot.Carries bytes (Image.align data) key

/-- An update that carries a signed image, octet for octet, and verifies under the key for
updates. -/
def OtaSigned (simulation : Simulation) (files : Files) (signed bytes : Bytes) : Prop :=
  ∃ key, files.TrustedKey simulation.otaCertificate simulation.otaSource key ∧
    Stage.ota.Carries bytes signed key

/-- The images that a simulation makes of its files: a boot loader and a firmware, both boot-signed,
and the signed firmware signed once more. -/
structure Makes (simulation : Simulation) (files : Files) (bootloader firmware update : Bytes) :
    Prop where
  bootloader_signed : simulation.BootSigned files simulation.bootloader bootloader
  firmware_signed : simulation.BootSigned files simulation.firmware firmware
  update_signed : simulation.OtaSigned files firmware update

/-- Publish the images that a simulation has made. -/
def publishImages (simulation : Simulation) (bootloader firmware update : Bytes) :
    Action Session Unit := do
  let bootloaderPath ←
    Command.simulationPath simulation.outputDirectory simulation.bootloader "-esp32signed.bin"
  let firmwarePath ←
    Command.simulationPath simulation.outputDirectory simulation.firmware "-esp32signed.bin"
  let updatePath ←
    Command.simulationPath simulation.outputDirectory simulation.firmware "-esp32signed_ota.bin"
  publish [⟨.signedImage, bootloaderPath, bootloader⟩, ⟨.signedImage, firmwarePath, firmware⟩,
    ⟨.otaSignedImage, updatePath, update⟩] []
  say [Report.simulationSaved bootloaderPath firmwarePath updatePath]

/-- What a simulation does with the images that it has made. -/
def save (simulation : Simulation) (bootloader firmware update : Bytes) : Action Session Unit := do
  let directory := Path.parse simulation.outputDirectory
  makeDirectories simulation.outputDirectory directory.names.length directory
  simulation.publishImages bootloader firmware update

/-- A simulation fails and changes nothing, or saves the images that it has made. -/
theorem goesOnAs_save (simulation : Simulation) :
    (Command.runSimulate simulation : Action Session Unit).GoesOnAs fun files rest =>
      ∃ bootloader firmware update, simulation.Makes files bootloader firmware update ∧
        rest = simulation.save bootloader firmware update := by
  refine (simulation.bootSource.finds_load.goesOn fun bootKey =>
    simulation.otaSource.finds_load.goesOn fun otaKey =>
    (SigningMaterial.finds_ofPrivateKey (some .boot) bootKey).goesOn fun boot =>
    (SigningMaterial.finds_ofPrivateKey (some .ota) otaKey).goesOn fun ota =>
    (SigningSource.finds_certificate simulation.bootCertificate).goesOn fun bootTrusted =>
    (SigningSource.finds_certificate simulation.otaCertificate).goesOn fun otaTrusted =>
    (finds_makeBootImage_carries boot.1 simulation.bootloader boot.2
      (bootTrusted.getD boot.2)).goesOn fun bootloader =>
    (finds_makeBootImage_carries boot.1 simulation.firmware boot.2
      (bootTrusted.getD boot.2)).goesOn fun firmware =>
    (finds_makeOtaImage_carries ota.1 simulation.firmware firmware.1.toBytes ota.2
      (otaTrusted.getD ota.2)).goesOn fun update =>
    goesOnAs_self (simulation.save bootloader.1.toBytes firmware.1.toBytes update.toBytes)).mono ?_
  rintro files rest ⟨bootKey, ⟨bootData, hbootData, hbootKey⟩, otaKey, ⟨otaData, hotaData, hotaKey⟩,
    boot, ⟨hboot, -⟩, ota, ⟨hota, -⟩, bootTrusted, hbootTrusted, otaTrusted, hotaTrusted,
    bootloader, ⟨data, hdata, hbootloader⟩, firmware, ⟨data', hdata', hfirmware⟩, update, hupdate,
    rfl⟩
  have hbootRecord : files.PrivateKeyRecord simulation.bootSource boot.2 :=
    ⟨bootData, bootKey, hbootData, hbootKey, hboot⟩
  have hotaRecord : files.PrivateKeyRecord simulation.otaSource ota.2 :=
    ⟨otaData, otaKey, hotaData, hotaKey, hota⟩
  -- One key is loaded for booting: boot loader and firmware verify under the same one.
  have htrusted := Files.trustedKey_getD hbootTrusted hbootRecord
  exact ⟨_, _, _, ⟨⟨data, _, hdata, htrusted, hbootloader⟩,
    ⟨data', _, hdata', htrusted, hfirmware⟩,
    ⟨_, Files.trustedKey_getD hotaTrusted hotaRecord, hupdate⟩⟩, rfl⟩

/-! ## Outputs -/

/-- The name of a boot-signed image behind the stem of its file. -/
def signedEnding : String := "-esp32signed.bin"

/-- The name of an update behind the stem of the firmware's file. -/
def updateEnding : String := "-esp32signed_ota.bin"

/-- The path of an output. -/
def pathOf (simulation : Simulation) (stem ending : String) : String :=
  Path.join simulation.outputDirectory (stem ++ ending)

/-- The file names of the boot loader and of the firmware have these stems. -/
structure Stems (simulation : Simulation) (stem stem' : String) : Prop where
  bootloader : (Path.parse simulation.bootloader).fileStem? = some stem
  firmware : (Path.parse simulation.firmware).fileStem? = some stem'

/-- The outputs, in the order in which they are moved into place. -/
def outputs (simulation : Simulation) (stem stem' : String) (bootloader firmware update : Bytes) :
    List Output :=
  [⟨.signedImage, simulation.pathOf stem signedEnding, bootloader⟩,
    ⟨.signedImage, simulation.pathOf stem' signedEnding, firmware⟩,
    ⟨.otaSignedImage, simulation.pathOf stem' updateEnding, update⟩]

/-- The paths of the outputs. -/
def paths (simulation : Simulation) (stem stem' : String) : List String :=
  [simulation.pathOf stem signedEnding, simulation.pathOf stem' signedEnding,
    simulation.pathOf stem' updateEnding]

/-- The paths of the outputs, as long as both files have a name. -/
def outputPaths (simulation : Simulation) : List String :=
  match (Path.parse simulation.bootloader).fileStem?,
    (Path.parse simulation.firmware).fileStem? with
  | some stem, some stem' => simulation.paths stem stem'
  | _, _ => []

theorem Stems.outputPaths_eq {simulation : Simulation} {stem stem' : String}
    (h : simulation.Stems stem stem') : simulation.outputPaths = simulation.paths stem stem' := by
  rw [outputPaths, h.bootloader, h.firmware]

theorem finds_simulationPath (simulation : Simulation) (image ending : String) :
    (Command.simulationPath simulation.outputDirectory image ending : Action Session String).Finds
      fun _ path => ∃ stem, (Path.parse image).fileStem? = some stem ∧
        path = simulation.pathOf stem ending := by
  unfold Command.simulationPath
  cases hstem : (Path.parse image).fileStem? with
  | none => exact (Finds.throw _).mono fun _ _ => False.elim
  | some stem =>
      refine (Finds.pure (Path.join simulation.outputDirectory (stem ++ ending))).mono ?_
      rintro files path rfl
      exact ⟨stem, rfl, rfl⟩

theorem goesOnAs_publish (simulation : Simulation) (bootloader firmware update : Bytes) :
    (simulation.publishImages bootloader firmware update).GoesOnAs fun _ rest =>
      ∃ stem stem' lines, simulation.Stems stem stem' ∧ rest = (do
        publish (simulation.outputs stem stem' bootloader firmware update) []
        say lines) := by
  refine ((simulation.finds_simulationPath simulation.bootloader signedEnding).goesOn
    fun bootloaderPath => (simulation.finds_simulationPath simulation.firmware signedEnding).goesOn
    fun firmwarePath => (simulation.finds_simulationPath simulation.firmware updateEnding).goesOn
    fun updatePath => goesOnAs_self _).mono ?_
  rintro files rest ⟨-, ⟨stem, hstem, rfl⟩, -, ⟨stem', hstem', rfl⟩, -, ⟨other, hother, rfl⟩, rfl⟩
  -- The stem of the firmware's file is taken twice, and is the same both times.
  cases hstem'.symm.trans hother
  exact ⟨stem, stem', _, ⟨hstem, hstem'⟩, rfl⟩

/-- How a simulation ends: it fails, with directories made at most, or it publishes the images that
it has made. -/
inductive Ends (simulation : Simulation) (before : Files) : Except Failure Unit → Workspace → Prop
  where
  | failed {failure : Failure} {w' : Workspace} (more : before.MoreDirectories w'.files)
      (temporaries_eq : w'.temporaries = []) : Ends simulation before (.error failure) w'
  | published {result : Except Failure Unit} {w' : Workspace} {stem stem' : String}
      {bootloader firmware update : Bytes} {made : Files} (stems : simulation.Stems stem stem')
      (makes : simulation.Makes before bootloader firmware update)
      (more : before.MoreDirectories made)
      (ending : Ending made (simulation.outputs stem stem' bootloader firmware update) result w') :
      Ends simulation before result w'

theorem Ends.of_sameFiles {simulation : Simulation} {before : Files} {result : Except Failure Unit}
    {w w' : Workspace} (h : simulation.Ends before result w) (hsame : SameFiles w w') :
    simulation.Ends before result w' := by
  cases h with
  | failed hmore htemporaries =>
      exact .failed (hsame.files_eq ▸ hmore) (hsame.temporaries_eq.trans htemporaries)
  | published hstems hmakes hmore hending =>
      exact .published hstems hmakes hmore (hending.of_sameFiles hsame)

theorem exists_ends_save {simulation : Simulation} {bootloader firmware update : Bytes}
    {w : Workspace} (hmakes : simulation.Makes w.files bootloader firmware update)
    (h : w.Fresh) :
    ∃ result w', (simulation.save bootloader firmware update).runIn w = (result, w') ∧
      simulation.Ends w.files result w' := by
  let directory := Path.parse simulation.outputDirectory
  let make : Action Session Unit :=
    makeDirectories simulation.outputDirectory directory.names.length directory
  have hmore : MoreDirectories w (make.runIn w).2 :=
    makesDirectories_makeDirectories simulation.outputDirectory directory.names.length directory w
  -- Directories that were made before a failure stay.
  rcases hmake : make.runIn w with ⟨failure | value, w₁⟩
  · rw [hmake] at hmore
    exact ⟨.error failure, w₁, runIn_bind_of_error hmake,
      .failed hmore.files (hmore.fresh h).temporaries_eq⟩
  rw [hmake] at hmore
  have hsave : (simulation.save bootloader firmware update).runIn w =
      (simulation.publishImages bootloader firmware update).runIn w₁ := runIn_bind_of_ok hmake
  have hfresh : w₁.Fresh := hmore.fresh h
  rw [hsave]
  rcases simulation.goesOnAs_publish bootloader firmware update w₁ with
    ⟨failure, w', hfailed, hsame⟩ | ⟨rest, w₂, ⟨stem, stem', lines, hstems, rfl⟩, hsame, hrun⟩
  · exact ⟨.error failure, w', hfailed, .failed (hmore.trans hsame.moreDirectories).files
      (hsame.fresh hfresh).temporaries_eq⟩
  · rcases publish_ends_saying (simulation.outputs stem stem' bootloader firmware update) [] lines
      (hsame.fresh hfresh) with ⟨result, w', hpublish, hending⟩
    rw [hsame.files_eq] at hending
    exact ⟨result, w', hrun.trans hpublish, .published hstems hmakes hmore.files hending⟩

theorem exists_ends (simulation : Simulation) {w : Workspace} (h : w.Fresh) :
    ∃ result w', (Command.runSimulate simulation : Action Session Unit).runIn w = (result, w') ∧
      simulation.Ends w.files result w' := by
  rcases simulation.goesOnAs_save w with
    ⟨failure, w', hfailed, hsame⟩ | ⟨rest, w₁, ⟨_, _, _, hmakes, rfl⟩, hsame, hrun⟩
  · exact ⟨.error failure, w', hfailed, .failed (hsame.files_eq ▸ .refl w.files)
      (hsame.fresh h).temporaries_eq⟩
  · rw [← hsame.files_eq] at hmakes
    rcases exists_ends_save hmakes (hsame.fresh h) with ⟨result, w', hsave, hends⟩
    rw [hsame.files_eq] at hends
    exact ⟨result, w', hrun.trans hsave, hends⟩

/-! ## Names of the outputs -/

section Names

variable {simulation : Simulation} {stem stem' : String}

theorem Stems.slash_not_mem (h : simulation.Stems stem stem') :
    '/' ∉ stem.toList ∧ '/' ∉ stem'.toList :=
  ⟨Path.slash_not_mem_of_fileStem? h.bootloader, Path.slash_not_mem_of_fileStem? h.firmware⟩

/-- An output has the name that its path is made of. -/
theorem getLast?_names_pathOf (files : Files) {ending : String} (hstem : '/' ∉ stem.toList)
    (hending : '/' ∉ ending.toList) (hlength : 2 ≤ ending.length) :
    (files.locate (simulation.pathOf stem ending)).names.getLast? = some (stem ++ ending) := by
  -- So long a name is neither empty nor a dot, and is kept when the path is read.
  have hlong : 2 ≤ (stem ++ ending).length := by
    rw [String.length_append]
    omega
  refine Files.getLast?_names_locate (Path.getLast?_names_join ?_ ?_ simulation.outputDirectory) ?_
  · rw [String.toList_append, List.mem_append]
    exact not_or.2 ⟨hstem, hending⟩
  · intro hempty
    rw [hempty] at hlong
    exact absurd hlong (by decide)
  · intro hdot
    rw [hdot] at hlong
    exact absurd hlong (by decide)

theorem getLast?_names_signed (files : Files) (hstem : '/' ∉ stem.toList) :
    (files.locate (simulation.pathOf stem signedEnding)).names.getLast? =
      some (stem ++ signedEnding) :=
  getLast?_names_pathOf files hstem (by decide) (by decide)

theorem getLast?_names_update (files : Files) (hstem : '/' ∉ stem.toList) :
    (files.locate (simulation.pathOf stem updateEnding)).names.getLast? =
      some (stem ++ updateEnding) :=
  getLast?_names_pathOf files hstem (by decide) (by decide)

/-- No signed image has the name of an update. -/
theorem signed_ne_update (stem stem' : String) : stem ++ signedEnding ≠ stem' ++ updateEnding := by
  intro h
  -- The fifth character from the end is another one in each ending.
  have hlast := congrArg (fun name : String => name.toList.reverse[4]?) h
  simp [signedEnding, updateEnding] at hlast

theorem apart_update (files : Files) (hstem : '/' ∉ stem.toList) (hstem' : '/' ∉ stem'.toList) :
    files.Apart (simulation.pathOf stem signedEnding) (simulation.pathOf stem' updateEnding) :=
  Files.apart_of_names (getLast?_names_signed files hstem) (getLast?_names_update files hstem')
    (signed_ne_update stem stem')

/-- The signed images have the same name just if their stems are the same. -/
theorem apart_signed (files : Files) (hstem : '/' ∉ stem.toList) (hstem' : '/' ∉ stem'.toList)
    (hne : stem ≠ stem') :
    files.Apart (simulation.pathOf stem signedEnding) (simulation.pathOf stem' signedEnding) :=
  Files.apart_of_names (getLast?_names_signed files hstem) (getLast?_names_signed files hstem')
    (mt (String.append_left_inj signedEnding).1 hne)

end Names

/-! ## What is delivered -/

/-- Of outputs that are all in place, one that comes later has taken the place of an earlier one
with the same name. -/
theorem contentOf_outputs {simulation : Simulation} {stem stem' : String}
    {bootloader firmware update : Bytes} {made after : Files}
    (hstems : simulation.Stems stem stem')
    (h : made.placeAll (simulation.outputs stem stem' bootloader firmware update) = .ok after) :
    after.contentOf (simulation.pathOf stem signedEnding) =
        .ok (if stem = stem' then firmware else bootloader) ∧
      after.contentOf (simulation.pathOf stem' signedEnding) = .ok firmware ∧
      after.contentOf (simulation.pathOf stem' updateEnding) = .ok update := by
  rcases hstems.slash_not_mem with ⟨hstem, hstem'⟩
  let first : Output := ⟨.signedImage, simulation.pathOf stem signedEnding, bootloader⟩
  let second : Output := ⟨.signedImage, simulation.pathOf stem' signedEnding, firmware⟩
  let third : Output := ⟨.otaSignedImage, simulation.pathOf stem' updateEnding, update⟩
  -- Neither of the last two takes the place of the other, whatever the stems are.
  have hlater : ∀ files : Files,
      [second, third].Pairwise fun output other => files.Apart output.path other.path :=
    fun files => List.pairwise_pair.2 (apart_update files hstem' hstem')
  have hplaced : made.placeAll [first, second, third] = .ok after := h
  rcases Files.placeAll_cons_eq_ok hplaced with ⟨files₁, -, hmore⟩
  have hcontent := Files.contentOf_placeAll hmore (hlater files₁)
  have hfirmware := hcontent second List.mem_cons_self
  refine ⟨?_, hfirmware, hcontent third (List.mem_cons_of_mem second List.mem_cons_self)⟩
  by_cases heq : stem = stem'
  · rw [if_pos heq, heq]
    exact hfirmware
  · have hapart : ∀ other ∈ [second, third], made.Apart first.path other.path := by
      intro other hother
      rcases List.mem_pair.1 hother with rfl | rfl
      · exact apart_signed made hstem hstem' heq
      · exact apart_update made hstem hstem'
    rw [if_neg heq]
    exact Files.contentOf_placeAll hplaced (List.pairwise_cons.2 ⟨hapart, hlater made⟩) first
      List.mem_cons_self

/-- A simulation that succeeds has made its images and put them in place one after the other. -/
theorem Ends.delivered {simulation : Simulation} {before : Files} {after : Workspace}
    (h : simulation.Ends before (.ok ()) after) :
    ∃ stem stem' bootloader firmware update, simulation.Stems stem stem' ∧
      simulation.Makes before bootloader firmware update ∧
      after.files.contentOf (simulation.pathOf stem signedEnding) =
        .ok (if stem = stem' then firmware else bootloader) ∧
      after.files.contentOf (simulation.pathOf stem' signedEnding) = .ok firmware ∧
      after.files.contentOf (simulation.pathOf stem' updateEnding) = .ok update := by
  cases h with
  | published hstems hmakes hmore hending =>
      cases hending with
      | finished _ hplaced =>
          exact ⟨_, _, _, _, _, hstems, hmakes, contentOf_outputs hstems hplaced⟩

/-! ## Success -/

section Success

variable {simulation : Simulation} {files : Files}

/-- With usable private keys and no certificates, a simulation gets to save its images. -/
theorem reaches_save {bootKey otaKey : Rsa.PrivateKey} {bootData otaData data data' : Bytes}
    (hboot : bootKey.Usable) (hota : otaKey.Usable)
    (hbootData : files.contentOf simulation.bootKey = .ok bootData)
    (hbootKey : simulation.bootSource.decode bootData = .ok bootKey)
    (hotaData : files.contentOf simulation.otaKey = .ok otaData)
    (hotaKey : simulation.otaSource.decode otaData = .ok otaKey)
    (hbootCertificate : simulation.bootCertificate = none)
    (hotaCertificate : simulation.otaCertificate = none)
    (hdata : files.contentOf simulation.bootloader = .ok data)
    (hdata' : files.contentOf simulation.firmware = .ok data') :
    (Command.runSimulate simulation : Action Session Unit).Reaches files fun rest =>
      ∃ bootloader firmware update, rest = simulation.save bootloader firmware update := by
  rcases KeyRecord.exists_rsaKey hboot with ⟨bootRecord, hbootCreate, hbootRecord⟩
  rcases KeyRecord.exists_rsaKey hota with ⟨otaRecord, hotaCreate, hotaRecord⟩
  rcases SigningKey.exists_ofPrivateKey hboot with ⟨bootSigning, hbootSigning, rfl⟩
  rcases SigningKey.exists_ofPrivateKey hota with ⟨otaSigning, hotaSigning, rfl⟩
  have hnone : ∀ certificate : Option String, certificate = none →
      (certificate.mapM loadCertificate : Action Session (Option KeyRecord)).Gives files none := by
    rintro certificate rfl
    exact Gives.pure none files
  refine (simulation.bootSource.gives_load hbootData hbootKey).reaches ?_
  refine (simulation.otaSource.gives_load hotaData hotaKey).reaches ?_
  refine (SigningMaterial.gives_ofPrivateKey hbootCreate hbootSigning _ files).reaches ?_
  refine (SigningMaterial.gives_ofPrivateKey hotaCreate hotaSigning _ files).reaches ?_
  refine (hnone _ hbootCertificate).reaches ((hnone _ hotaCertificate).reaches ?_)
  refine (yields_makeBootImage hboot hbootRecord hdata).reaches fun bootloader _ => ?_
  refine (yields_makeBootImage hboot hbootRecord hdata').reaches fun firmware _ => ?_
  refine (yields_makeOtaImage hota hotaRecord firmware.1.whole_sectors simulation.firmware
    files).reaches fun update _ => ?_
  exact reaches_self _ files ⟨bootloader.1.toBytes, firmware.1.toBytes, update.toBytes, rfl⟩

theorem gives_simulationPath {image stem : String} (h : (Path.parse image).fileStem? = some stem)
    (ending : String) (files : Files) :
    (Command.simulationPath simulation.outputDirectory image ending :
      Action Session String).Gives files (simulation.pathOf stem ending) := by
  unfold Command.simulationPath
  rw [h]
  exact Gives.pure _ files

/-- In a directory that is there, with a place for each output, the images are saved as long as
temporary files can be made and written. -/
theorem exists_save {stem stem' : String} {w : Workspace} (h : w.Fresh)
    (hspares : w.faults.Spares 0 3)
    (hdirectory : w.files.tree.isDirectory w.files.current
      (Path.parse simulation.outputDirectory) = true)
    (hstems : simulation.Stems stem stem')
    (hplace : ∀ path ∈ simulation.paths stem stem', w.files.Placeable path)
    (bootloader firmware update : Bytes) :
    ∃ w', (simulation.save bootloader firmware update).runIn w = (.ok (), w') := by
  have hreaches : (simulation.save bootloader firmware update).Reaches w.files fun rest =>
      ∃ lines, rest = (do
        publish (simulation.outputs stem stem' bootloader firmware update) []
        say lines) := by
    refine (gives_makeDirectories hdirectory _ _).reaches ?_
    refine (gives_simulationPath hstems.bootloader signedEnding w.files).reaches ?_
    refine (gives_simulationPath hstems.firmware signedEnding w.files).reaches ?_
    refine (gives_simulationPath hstems.firmware updateEnding w.files).reaches ?_
    exact reaches_self _ w.files ⟨_, rfl⟩
  rcases hreaches w rfl with ⟨rest, w₁, ⟨lines, rfl⟩, hsame, hrun⟩
  rcases publish_ends_saying (simulation.outputs stem stem' bootloader firmware update) [] lines
    (hsame.fresh h) with ⟨result, w', hpublish, hending⟩
  rw [hsame.files_eq] at hending
  have hresult : result = .ok () := by
    refine hending.eq_ok_of_placeable hspares ?_
    exact fun output houtput => hplace output.path (List.mem_map_of_mem (f := Output.path) houtput)
  rw [hresult] at hpublish
  exact ⟨w', hrun.trans hpublish⟩

/-- A simulation that gets to save its images succeeds where they can be saved. -/
theorem exists_success {stem stem' : String} {w : Workspace} (h : w.Fresh)
    (hspares : w.faults.Spares 0 3)
    (hreaches : (Command.runSimulate simulation : Action Session Unit).Reaches w.files fun rest =>
      ∃ bootloader firmware update, rest = simulation.save bootloader firmware update)
    (hdirectory : w.files.tree.isDirectory w.files.current
      (Path.parse simulation.outputDirectory) = true)
    (hstems : simulation.Stems stem stem')
    (hplace : ∀ path ∈ simulation.paths stem stem', w.files.Placeable path) :
    ∃ w', (Command.runSimulate simulation : Action Session Unit).runIn w = (.ok (), w') := by
  rcases hreaches w rfl with ⟨rest, w₁, ⟨bootloader, firmware, update, rfl⟩, hsame, hrun⟩
  have hfaults : w₁.faults = w.faults := congrArg Files.faults hsame.files_eq
  rw [← hsame.files_eq] at hdirectory hplace
  rw [← hfaults] at hspares
  rcases exists_save (hsame.fresh h) hspares hdirectory hstems hplace bootloader firmware
    update with ⟨w', hsave⟩
  exact ⟨w', hrun.trans hsave⟩

end Success

end Simulation

/-- A simulation that succeeds has made a signed boot loader, a signed firmware and an update
around the latter, and has put them in its directory.  The firmware and the update are there under
their names; the boot loader is, unless its file has the stem of the firmware's file: then the
firmware has taken its place. -/
theorem simulation_delivers (tree : FileTree) (current : Location) (salts : Nat → Salt)
    (faults : Faults) (arguments : List String) (verbosity : Verbosity) (simulation : Simulation)
    (h : Invocation.parse arguments = .ok ⟨verbosity, some (.simulate simulation)⟩) :
    ∃ code after, (runProgram arguments : Session ExitCode).run
        (Workspace.start tree current salts faults) = (code, after) ∧
      (code = .success → ∃ stem stem' bootloader firmware update,
        simulation.Stems stem stem' ∧
        simulation.Makes ⟨tree, current, faults⟩ bootloader firmware update ∧
        after.files.contentOf (simulation.pathOf stem Simulation.signedEnding) =
          .ok (if stem = stem' then firmware else bootloader) ∧
        after.files.contentOf (simulation.pathOf stem' Simulation.signedEnding) = .ok firmware ∧
        after.files.contentOf (simulation.pathOf stem' Simulation.updateEnding) = .ok update) := by
  rcases exists_run_of_command h (fun w => simulation.exists_ends (w := w))
      (fun hends hsame => hends.of_sameFiles hsame) (w := .start tree current salts faults)
      ⟨rfl, rfl⟩ with
    ⟨result, after, hrun, hends⟩
  refine ⟨_, after, hrun, ?_⟩
  intro hcode
  cases result with
  | ok value => exact hends.delivered
  | error failure => cases hcode

/-! ### A sample -/

/-- A file with the sample key. -/
def samplePrivateKey : Bytes :=
  let key := Rsa.sampleKey
  let numbers : List Nat := [0, key.modulus, key.exponent, key.privateExponent, key.prime1,
    key.prime2, key.privateExponent % (key.prime1 - 1), key.privateExponent % (key.prime2 - 1),
    powMod key.prime2 (key.prime1 - 2) key.prime1]
  let pkcs1 := Der.construct Der.Tag.sequence (numbers.map Der.Element.ofUint)
  (Der.construct Der.Tag.sequence [Der.Element.ofUint 0, Der.Algorithm.rsa.toElement,
    ⟨Der.Tag.octetString, pkcs1.encode⟩]).encode

theorem rsaKey?_samplePrivateKey :
    PrivateKeyInfo.rsaKey? samplePrivateKey = some Rsa.sampleKey := by
  decide +kernel

namespace Simulation

/-- A directory with a private key, two boot loaders and firmware of the same file name as one of
them. -/
def sampleTree : FileTree :=
  ⟨[(["k"], .file samplePrivateKey), (["a"], .directory), (["b"], .directory), (["o"], .directory),
    (["a", "i"], .file []), (["b", "i"], .file [0]), (["b", "f"], .file [0])]⟩

def sample (firmware : String) : Simulation where
  bootKey := "k"
  otaKey := "k"
  encoding := .der
  bootCertificate := none
  otaCertificate := none
  bootloader := "a/i"
  firmware := firmware
  outputDirectory := "o"

def sampleArguments (firmware : String) : List String :=
  ["secure-sim", "-t", "der", "--boot-key", "k", "--ota-key", "k", "a/i", firmware, "o"]

def sampleStart : Workspace :=
  .start sampleTree [] fun _ => Octets.fill 32 0

/-- The paths of outputs for which there is a place in the sample's directory. -/
def samplePaths : List String :=
  ["o/i-esp32signed.bin", "o/f-esp32signed.bin", "o/i-esp32signed_ota.bin",
    "o/f-esp32signed_ota.bin"]

theorem placeable_samplePaths : ∀ path ∈ samplePaths, sampleStart.files.Placeable path :=
  List.forall_mem_cons.2 ⟨⟨⟨_, _, rfl, rfl⟩, _, rfl⟩, List.forall_mem_cons.2
    ⟨⟨⟨_, _, rfl, rfl⟩, _, rfl⟩, List.forall_mem_cons.2 ⟨⟨⟨_, _, rfl, rfl⟩, _, rfl⟩,
      List.forall_mem_singleton.2 ⟨⟨_, _, rfl, rfl⟩, _, rfl⟩⟩⟩⟩

/-- The simulation succeeds with a firmware that is there. -/
theorem exists_sample {firmware stem : String} {data : Bytes}
    (hparse : Invocation.parse (sampleArguments firmware) =
      .ok ⟨.regular, some (.simulate (sample firmware))⟩)
    (hdata : sampleStart.files.contentOf firmware = .ok data)
    (hstems : (sample firmware).Stems "i" stem)
    (hpaths : (sample firmware).paths "i" stem ⊆ samplePaths) :
    ∃ after, (runProgram (sampleArguments firmware) : Session ExitCode).run sampleStart =
      (.success, after) ∧ (sample firmware).Ends sampleStart.files (.ok ()) after := by
  have hkey : (sample firmware).bootSource.decode samplePrivateKey = .ok Rsa.sampleKey := by
    have hcontent : (sample firmware).bootSource.ofContent? samplePrivateKey =
        some Rsa.sampleKey := rsaKey?_samplePrivateKey
    rw [KeySource.decode, if_neg (fun h => nomatch h.1), hcontent]
  have hfile : sampleStart.files.contentOf "k" = .ok samplePrivateKey := rfl
  have hbootloader : sampleStart.files.contentOf "a/i" = .ok [] := rfl
  have hreaches : (Command.runSimulate (sample firmware) : Action Session Unit).Reaches
      sampleStart.files fun rest => ∃ bootloader made update,
        rest = (sample firmware).save bootloader made update :=
    reaches_save Rsa.usable_sampleKey Rsa.usable_sampleKey hfile hkey hfile hkey rfl rfl hbootloader
      hdata
  rcases exists_run_runProgram hparse sampleStart with
    ⟨result, w', after, hcommand, hprogram, hsame⟩
  have hdirectory : sampleTree.isDirectory [] (Path.parse "o") = true := by
    decide +kernel
  rcases exists_success (w := { sampleStart with verbosity := .regular }) ⟨rfl, rfl⟩
    (Faults.spares_empty 0 3) hreaches hdirectory hstems
    (fun path hpath => placeable_samplePaths path (hpaths hpath)) with ⟨w'', hsuccess⟩
  rcases (sample firmware).exists_ends (w := { sampleStart with verbosity := .regular })
    ⟨rfl, rfl⟩ with ⟨result', w₁, hrun, hends⟩
  -- There is one run: what is known of its success and of its end is about the same workspace.
  cases hsuccess.symm.trans hcommand
  cases hsuccess.symm.trans hrun
  exact ⟨after, hprogram, hends.of_sameFiles hsame⟩

end Simulation

/-- A firmware of another name than the boot loader is delivered beside it. -/
theorem simulation_delivers_sampleTree :
    ∃ (bootloader firmware update : Bytes) (after : Workspace),
      (runProgram (Simulation.sampleArguments "b/f") : Session ExitCode).run
          Simulation.sampleStart = (.success, after) ∧
        (Simulation.sample "b/f").Makes Simulation.sampleStart.files bootloader firmware update ∧
        after.files.contentOf "o/i-esp32signed.bin" = .ok bootloader ∧
        after.files.contentOf "o/f-esp32signed.bin" = .ok firmware ∧
        after.files.contentOf "o/f-esp32signed_ota.bin" = .ok update := by
  have hparse : Invocation.parse (Simulation.sampleArguments "b/f") =
      .ok ⟨.regular, some (.simulate (Simulation.sample "b/f"))⟩ := by
    decide +kernel
  have hstems : (Simulation.sample "b/f").Stems "i" "f" := ⟨by decide +kernel, by decide +kernel⟩
  have hpaths : (Simulation.sample "b/f").paths "i" "f" =
      ["o/i-esp32signed.bin", "o/f-esp32signed.bin", "o/f-esp32signed_ota.bin"] := by
    decide +kernel
  rcases Simulation.exists_sample hparse rfl hstems (by decide +kernel) with ⟨after, hsuccess, -⟩
  rcases simulation_delivers Simulation.sampleTree [] _ .empty _ _ _ hparse with
    ⟨code, after', hrun, hdelivers⟩
  cases hrun.symm.trans hsuccess
  rcases hdelivers rfl with
    ⟨stem, stem', bootloader, firmware, update, hfound, hmakes, hbootloader, hfirmware, hupdate⟩
  cases hstems.bootloader.symm.trans hfound.bootloader
  cases hstems.firmware.symm.trans hfound.firmware
  rcases List.cons_eq_cons.1 hpaths with ⟨hfirst, hmore⟩
  rcases List.cons_eq_cons.1 hmore with ⟨hsecond, hlast⟩
  rw [hfirst, if_neg (by decide)] at hbootloader
  rw [hsecond] at hfirmware
  rw [List.singleton_inj.1 hlast] at hupdate
  exact ⟨bootloader, firmware, update, after, hsuccess, hmakes, hbootloader, hfirmware, hupdate⟩

/-- A firmware of the boot loader's name takes its place: under this name is no image that carries
the boot loader. -/
theorem simulation_overwrites :
    ∃ (bytes : Bytes) (after : Workspace),
      (runProgram (Simulation.sampleArguments "b/i") : Session ExitCode).run
          Simulation.sampleStart = (.success, after) ∧
        (Simulation.sample "b/i").Stems "i" "i" ∧
        Simulation.sampleStart.files.contentOf "a/i" = .ok [] ∧
        after.files.contentOf ((Simulation.sample "b/i").pathOf "i" Simulation.signedEnding) =
          .ok bytes ∧
        ∀ key, ¬Stage.boot.Carries bytes (Image.align []) key := by
  have hparse : Invocation.parse (Simulation.sampleArguments "b/i") =
      .ok ⟨.regular, some (.simulate (Simulation.sample "b/i"))⟩ := by
    decide +kernel
  have hstems : (Simulation.sample "b/i").Stems "i" "i" := ⟨by decide +kernel, by decide +kernel⟩
  rcases Simulation.exists_sample hparse rfl hstems (by decide +kernel) with
    ⟨after, hsuccess, hends⟩
  rcases hends.delivered with
    ⟨stem, stem', bootloader, firmware, update, hfound, hmakes, -, hfirmware, -⟩
  cases hstems.firmware.symm.trans hfound.firmware
  refine ⟨firmware, after, hsuccess, hstems, rfl, hfirmware, ?_⟩
  -- What is there has the content of the firmware's file, and an image has only one content.
  rintro key ⟨block, -, hundo⟩
  rcases hmakes.firmware_signed with ⟨data, -, hdata, -, block', -, hundo'⟩
  have hread : Simulation.sampleStart.files.contentOf "b/i" = .ok [0] := rfl
  cases hread.symm.trans hdata
  have hcontent : Image.align [] = Image.align [0] :=
    congrArg Prod.fst (Except.ok.inj (hundo.symm.trans hundo'))
  exact absurd hcontent (by decide +kernel)

end SecureBoot
