import SecureBoot.Command.Generating
import SecureBoot.Saving

/-!
# Running commands

`Command.run` does what a command asks for, on any host.  Every image is signed in memory and
verified under the key it is for, and only then written.

`Invocation.run` runs the command of an invocation and logs its failure; `runProgram` starts from
the arguments.  The `ExitCode` tells how that went.
-/

namespace SecureBoot

variable {m : Type → Type} [Monad m] [Host m]

/-! ## Images -/

/-- The digest that a signature of a stage is over. -/
def Stage.digest (stage : Stage) (image : Bytes) : Checked Digest :=
  match stage with
  | .boot => .ok (Image.digestBoot image)
  | .ota => Image.digestOtaBody image

/-- The block of a signed image, if the image verifies against a trusted key. -/
def Stage.verify (stage : Stage) (image : Bytes) (trusted : KeyRecord) : Checked SignatureBlock :=
  match stage with
  | .boot => BootImage.verify image trusted
  | .ota => OtaImage.verify image trusted

/-- A signer that logs the digest before it signs. -/
def Signer.announcing {σ : Type} (stage : Stage) (signer : Signer m σ) : Signer m σ :=
  fun digest => do
    Host.log (Report.digestComputed stage digest)
    signer digest

namespace Action

/-- The digest that a signature of a stage is over. -/
def digestImage (stage : Stage) (image : String) (data : Bytes) : Action m Digest := do
  let digest ← ofResult (stage.digest data) (.digestImage image)
  say [Report.digestComputed stage digest, Report.digestReady digest]
  return digest

def verifyImage (stage : Stage) (data : Bytes) (trusted : KeyRecord)
    (failure : Fault Empty → Failure) : Action m SignatureBlock := do
  say (Report.blockChecked stage data)
  let block ← ofResult (stage.verify data trusted) failure
  say [Report.signatureVerified stage data]
  return block

/-- Sign an image that is in a file, and verify the result. -/
def makeBootImage (image : String) (key : KeyRecord) (signer : Signer m Pss.SigningFault)
    (trusted : KeyRecord) : Action m (BootImage × SignatureBlock) := do
  let data ← loadImage image
  say (Report.signingImage .boot image :: Report.alignment data)
  let signed ← ask (BootImage.sign data key (signer.announcing .boot)) (.signImage .boot image)
  say (Report.bootImageSigned signed)
  let block ← verifyImage .boot signed.toBytes trusted (.verifySigned .boot image)
  return (signed, block)

/-- Sign the content of a boot-signed image, and verify the result. -/
def makeOtaImage (image : String) (body : Bytes) (key : KeyRecord)
    (signer : Signer m Pss.SigningFault) (trusted : KeyRecord) : Action m OtaImage := do
  say [Report.signingImage .ota image]
  let signed ← ask (OtaImage.sign body key (signer.announcing .ota)) (.signImage .ota image)
  say (Report.otaImageSigned signed)
  let _ ← verifyImage .ota signed.toBytes trusted (.verifySigned .ota image)
  return signed

/-! ## Directories -/

def makeLastDirectory (name : String) (path : Path) : Action m Unit := do
  match ← (Host.makeDirectory path : m _) with
  | .ok () => return
  | .error error =>
    if ← (Host.isDirectory path : m _) then return
    else throw (.createDirectory name error)

/-- Make a directory, and those it is in; `depth` bounds how many.  The current directory needs no
making. -/
def makeDirectories (name : String) (depth : Nat) (path : Path) : Action m Unit := do
  if path.start = .here ∧ path.names = [] then return
  match ← (Host.makeDirectory path : m _) with
  | .ok () => return
  -- What is missing may be an outer directory.
  | .error .notFound =>
    match depth, path.parent? with
    | depth + 1, some parent =>
      makeDirectories name depth parent
      makeLastDirectory name path
    | _, _ => throw (.createDirectory name .notFound)
  | .error error =>
    if ← (Host.isDirectory path : m _) then return
    else throw (.createDirectory name error)

end Action

/-! ## Commands -/

namespace Command

open SecureBoot.Action

def runHashKey (certificate hash : String) : Action m Unit := do
  let key ← loadCertificate certificate
  publish [⟨.hash, hash, key.hash.toBytes⟩] [Report.keyHash key]

/-- Write an image padded to a whole number of sectors. -/
def runAlign (image aligned : String) : Action m Unit := do
  let data ← loadImage image
  say (Report.alignment data)
  publish [⟨.alignedImage, aligned, Image.align data⟩] []

/-- Write the digest that a signature is to be over. -/
def runDigest (stage : Stage) (image output : String) : Action m Unit := do
  let data ← loadImage image
  let digest ← digestImage stage image data
  say [Report.digestResult stage digest]
  publish [⟨.digest, output, digest.toBytes⟩] []

/-- Write a signature over the digest of an image. -/
def runSignDigest (source : KeySource) (stage : Stage) (image output : String) :
    Action m Unit := do
  let key ← source.load
  let data ← loadImage image
  let digest ← digestImage stage image data
  say [Report.signingDigest stage image]
  -- The size of the key matters only now.
  let key ← ofResult (SigningKey.ofPrivateKey key) .signingKey
  let signature ← ask (key.signer Host.drawSalt digest) .signDigest
  publish [⟨.signature, output, signature.toBytes⟩] []

/-- Write a boot-signed image, and its signature sector where that is asked for. -/
def runSignBoot (source : SigningSource) (sector : Option String) (image output : String) :
    Action m Unit := do
  let (material, key) ← source.load
  let (signed, block) ← makeBootImage image key material.signer key
  let sector := sector.map fun path =>
    ⟨.signatureSector, path, (block.save true (Sink.empty none none)).1.accepted⟩
  publish (⟨.signedImage, output, signed.toBytes⟩ :: sector.toList) []

def runSignOta (source : SigningSource) (image output : String) : Action m Unit := do
  let (material, key) ← source.load
  let data ← loadImage image
  let signed ← makeOtaImage image data key material.signer key
  publish [⟨.otaSignedImage, output, signed.toBytes⟩] []

/-- Verify images one after the other, up to the first that does not verify. -/
def runVerify (stage : Stage) (certificate : String) (images : List String) : Action m Unit := do
  let trusted ← loadCertificate certificate
  images.forM fun image => do
    say [Report.verifyingImage stage image]
    let data ← loadImage image
    let _ ← verifyImage stage data trusted (.notSigned image certificate)
    say [Report.imageVerified stage image]

/-- The path of an output of a simulation: the name of the image with another ending. -/
def simulationPath (directory image ending : String) : Action m String :=
  match (Path.parse image).fileStem? with
  | some stem => pure (Path.join directory (stem ++ ending))
  | none => throw (.noFileName image)

/-- Sign a boot loader and a firmware, and the signed firmware once more as an update. -/
def runSimulate (files : Simulation) : Action m Unit := do
  let bootKey ← (⟨files.bootKey, files.encoding, none⟩ : KeySource).load
  let otaKey ← (⟨files.otaKey, files.encoding, none⟩ : KeySource).load
  let (boot, bootRecord) ← SigningMaterial.ofPrivateKey (some .boot) bootKey
  let (ota, otaRecord) ← SigningMaterial.ofPrivateKey (some .ota) otaKey
  let bootTrusted ← files.bootCertificate.mapM loadCertificate
  let otaTrusted ← files.otaCertificate.mapM loadCertificate
  let bootTrusted := bootTrusted.getD bootRecord
  let otaTrusted := otaTrusted.getD otaRecord
  let (bootloader, _) ← makeBootImage files.bootloader bootRecord boot.signer bootTrusted
  let (firmware, _) ← makeBootImage files.firmware bootRecord boot.signer bootTrusted
  let update ← makeOtaImage files.firmware firmware.toBytes otaRecord ota.signer otaTrusted
  let directory := Path.parse files.outputDirectory
  makeDirectories files.outputDirectory directory.names.length directory
  let bootloaderPath ← simulationPath files.outputDirectory files.bootloader "-esp32signed.bin"
  let firmwarePath ← simulationPath files.outputDirectory files.firmware "-esp32signed.bin"
  let updatePath ← simulationPath files.outputDirectory files.firmware "-esp32signed_ota.bin"
  publish [
    ⟨.signedImage, bootloaderPath, bootloader.toBytes⟩,
    ⟨.signedImage, firmwarePath, firmware.toBytes⟩,
    ⟨.otaSignedImage, updatePath, update.toBytes⟩] []
  say [Report.simulationSaved bootloaderPath firmwarePath updatePath]

def run (command : Command) : Action m Unit :=
  match command with
  | generateKey key publicKey hash => runGenerateKey key publicKey hash
  | hashKey certificate hash => runHashKey certificate hash
  | align image aligned => runAlign image aligned
  | digest stage image output => runDigest stage image output
  | signDigest key stage image signature => runSignDigest key stage image signature
  | signBoot source sector image signed => runSignBoot source sector image signed
  | verifyBoot certificate images => runVerify .boot certificate images
  | signOta source image signed => runSignOta source image signed
  | verifyOta certificate images => runVerify .ota certificate images
  | simulate files => runSimulate files

end Command

/-! ## Invocations -/

inductive ExitCode where
  | success
  | failure
  /-- The arguments are not admitted. -/
  | usage
  deriving DecidableEq, Repr

def ExitCode.toNat : ExitCode → Nat
  | success => 0
  | failure => 1
  | usage => 2

/-- Run the command of an invocation, and log its failure. -/
def Invocation.run (invocation : Invocation) : m ExitCode := do
  Host.setVerbosity invocation.verbosity
  match invocation.command with
  | none => return .success
  | some command =>
    match ← command.run.run with
    | .ok () => return .success
    | .error failure =>
      Host.log ⟨.error, failure.message⟩
      return .failure

def runProgram (arguments : List String) : m ExitCode :=
  match Invocation.parse arguments with
  | .ok invocation => invocation.run
  | .error .help => return .success
  | .error .usage => return .usage

end SecureBoot
