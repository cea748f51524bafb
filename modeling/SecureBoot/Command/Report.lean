import SecureBoot.BootImage
import SecureBoot.Command.Failure
import SecureBoot.OtaImage

/-!
# Reports of commands

What commands say in the log while they work.  Each report is a line, or the lines that belong to
one step; they depend on what the step works on and on its result alone.
-/

namespace SecureBoot.Report

def info (text : String) : LogLine := ⟨.info, text⟩

def debug (text : String) : LogLine := ⟨.debug, text⟩

/-! ## Values -/

/-- Texts as a list in brackets. -/
def listText (items : List String) : String :=
  "[" ++ String.intercalate ", " items ++ "]"

/-- An octet string as a list of hexadecimal octets. -/
def hexList (bs : Bytes) : String :=
  listText (bs.map fun b => String.ofList (Hex.octet b))

/-- An octet string as a list of decimal octets. -/
def decimalList (bs : Bytes) : String :=
  listText (bs.map fun b => toString b.toNat)

def keyText (key : KeyRecord) : String :=
  s!"SBV2RsaPubKey \x7b n: {key.modulus}, e: {key.exponent}, m: {key.montgomeryM}, .. \x7d"

def blockText (block : SignatureBlock) : String :=
  s!"SBV2RsaSignatureBlock \x7b magic: {block.magic.toNat}, version: {block.version.toNat}, " ++
    s!"sha256: {decimalList block.digest.toBytes}, rsa_pub_key: {keyText block.key}, " ++
    s!"crc32: {block.crc.toNat}, .. \x7d"

/-! ## Keys -/

def keyMade (key : KeyRecord) : LogLine :=
  debug s!"Key Montgomery constant M: 0x{Hex.number 8 key.montgomeryM}"

def certificateLoaded (key : KeyRecord) (path : Path) : List LogLine :=
  [keyMade key, debug s!"Loaded {keyText key} from `{path.render}`"]

def loadingKey (hasPassword : Bool) (path : Path) : LogLine :=
  if hasPassword then
    info <| s!"Loading password-protected signing key from `{path.render}` " ++
      "(this will take some time)..."
  else debug s!"Loading signing key from `{path.render}`..."

def keyLoaded : LogLine := debug "Signing key loaded"

def keyHash (key : KeyRecord) : LogLine :=
  info s!"Key hash: {Hex.bytes key.hash.toBytes}"

def generatingKey : LogLine :=
  info "Generating RSA-3072 private key (this will take some time)..."

def keyGenerated (hasPassword : Bool) : LogLine :=
  if hasPassword then
    info <| "Key generation complete, saving with password protection " ++
      "(this will take some time)..."
  else debug "Key generation complete, saving..."

/-! ## Digests -/

/-- What an image needs to become a whole number of sectors, if it is not one. -/
def alignment (image : Bytes) : List LogLine :=
  let padding := Image.paddingLength image.length
  if padding = 0 then []
  else
    [info <| s!"Image size ({image.length}B) is not a multiple of {Layout.sectorLength}B. " ++
      s!"Padding {padding}B with 0xFF"]

def digestComputed (stage : Stage) (digest : Digest) : LogLine :=
  match stage with
  | .boot => debug s!"Boot digest: {hexList digest.toBytes}"
  | .ota => debug s!"OTA body digest: {hexList digest.toBytes}"

def digestReady (digest : Digest) : LogLine :=
  debug s!"Digest: {Hex.bytes digest.toBytes}"

def stageText : Stage → String
  | .boot => "Boot"
  | .ota => "Ota"

def digestResult (stage : Stage) (digest : Digest) : LogLine :=
  info s!"{stageText stage} digest: {Hex.bytes digest.toBytes}"

/-! ## Signing -/

def signingDigest (stage : Stage) (image : String) : LogLine :=
  info s!"Signing {stageText stage} digest of `{image}`..."

def signingImage (stage : Stage) (image : String) : LogLine :=
  info s!"{stage.signingText} image `{image}`..."

def checksumComputed (crc : UInt32) : LogLine :=
  debug s!"Signature block CRC32: 0x{Hex.number 8 crc.toNat}"

def bootImageSigned (image : BootImage) : List LogLine :=
  [checksumComputed image.block.crc, info s!"Image signed, {image.toBytes.length}B"]

def otaImageSigned (image : OtaImage) : List LogLine :=
  [checksumComputed image.block.crc, info s!"Image OTA-signed, {image.toBytes.length}B"]

/-! ## Verification -/

/-- A signature block is validated: the checksum is computed if the block gets so far, and a valid
block is shown. -/
def validation (title : String) (block : SignatureBlock) : List LogLine :=
  if block.magic = Layout.magic ∧ block.version = Layout.version then
    checksumComputed block.computedCrc ::
      if block.validate.isOk then [debug s!"{title}: {blockText block}"] else []
  else []

def verifyingImage (stage : Stage) (image : String) : LogLine :=
  match stage with
  | .boot => info s!"Verifying image `{image}`..."
  | .ota => info s!"Verifying OTA image `{image}`..."

/-- The block of an image as far as it is looked at. -/
def blockChecked (stage : Stage) (image : Bytes) : List LogLine :=
  match stage with
  | .boot =>
    match BootImage.ofBytes image with
    | .ok image => validation "Signature block" image.block
    | .error _ => []
  | .ota =>
    match OtaImage.ofBytes image with
    | .ok image =>
      -- A block with another hash is not looked at.
      if Sha256.digest image.blockOctets.toBytes = image.blockHash then
        validation "OTA signature block" image.block
      else []
    | .error _ => []

def signatureVerified (stage : Stage) (image : Bytes) : LogLine :=
  match stage with
  | .boot => info s!"Boot signature verified ({image.length - Layout.sectorLength}B signed)"
  | .ota => info s!"OTA signature verified ({image.length - Layout.otaRecordLength}B signed)"

def imageVerified (stage : Stage) (image : String) : LogLine :=
  match stage with
  | .boot => info s!"Image `{image}` verified successfully"
  | .ota => info s!"OTA image `{image}` verified successfully"

/-! ## Outputs -/

def saved (product : Product) (path : Path) : LogLine :=
  info s!"Saved {product.describe} to `{path.render}`"

def simulationSaved (bootloader firmware update : String) : LogLine :=
  info s!"Saved `{bootloader}`, `{firmware}` and `{update}`"

end SecureBoot.Report
