import SecureBoot.Command.Syntax
import SecureBoot.Fault

/-!
# Failures of commands

A `Failure` is the step at which a command gives up, with the cause.  `Failure.message` is the
line that the log shows for it: the step first, then the cause.

A file is named as the command line names it, or by its complete path where the step is one on the
file itself.
-/

namespace SecureBoot

inductive Product where
  | key
  | publicKey
  | alignedImage
  | digest
  | hash
  | signature
  | signedImage
  | signatureSector
  | otaSignedImage
  deriving DecidableEq, Repr

def Product.describe : Product → String
  | key => "key"
  | publicKey => "public key"
  | alignedImage => "aligned image"
  | digest => "digest"
  | hash => "hash"
  | signature => "signature"
  | signedImage => "signed image"
  | signatureSector => "signature sector"
  | otaSignedImage => "OTA-signed image"

/-- What a signing key is for, if that is known. -/
def Stage.keyText : Option Stage → String
  | none => "signing key"
  | some .boot => "boot signing key"
  | some .ota => "OTA signing key"

/-- The signing of an image, as the start of a sentence. -/
def Stage.signingText : Stage → String
  | .boot => "Signing"
  | .ota => "OTA-signing"

def Stage.signedText : Stage → String
  | .boot => "signed image"
  | .ota => "OTA-signed image"

def KeyEncoding.text : KeyEncoding → String
  | .pem => "PEM"
  | .der => "DER"

inductive Failure where
  | loadCertificate (path : Path) (error : OsError)
  | parseCertificate (path : Path) (fault : Fault Empty)
  | loadKey (error : OsError)
  /-- The file of a key is to be text, and is not. -/
  | keyNotText
  | parseKey (encoding : KeyEncoding)
  | unsupportedKey (stage : Option Stage) (fault : Fault Empty)
  | certificateMismatch
  | loadSignature (path : Path) (error : OsError)
  | parseSignature (path : Path) (fault : Fault Empty)
  | openImage (path : Path) (error : OsError)
  | readImage (path : Path) (error : OsError)
  | digestImage (image : String) (fault : Fault Empty)
  | signingKey (fault : Fault Empty)
  | signDigest (fault : Pss.SigningFault)
  | signImage (stage : Stage) (image : String) (fault : Fault Pss.SigningFault)
  /-- An image just signed does not verify. -/
  | verifySigned (stage : Stage) (image : String) (fault : Fault Empty)
  | notSigned (image certificate : String) (fault : Fault Empty)
  | noParent (path : Path)
  | createOutput (product : Product) (path : Path) (error : OsError)
  | writeOutput (product : Product) (error : OsError)
  | saveOutput (product : Product) (path : Path) (error : OsError)
  | createDirectory (directory : String) (error : OsError)
  | noFileName (image : String)
  | generateKey (description : String)
  /-- A new key cannot be written: its primes are not coprime. -/
  | encodeKey (encoding : KeyEncoding)
  /-- A new key has no hash. -/
  | hashKey (fault : Fault Empty)
  deriving DecidableEq, Repr

/-- The text of a fault in which no signer takes part. -/
def Fault.text (fault : Fault Empty) : String :=
  fault.message Empty.elim

def Failure.message : Failure → String
  | loadCertificate path error =>
    s!"Loading certificate `{path.render}` failed: {error.message}"
  | parseCertificate path fault =>
    s!"Parsing certificate `{path.render}` failed: {fault.text}"
  | loadKey error => s!"Loading key failed: {error.message}"
  | keyNotText => "Loading key failed: stream did not contain valid UTF-8"
  | parseKey encoding => s!"Parsing {encoding.text} signature key failed"
  | unsupportedKey stage fault => s!"Unsupported {Stage.keyText stage}: {fault.text}"
  | certificateMismatch => "The certificate does not match the signing key"
  | loadSignature path error => s!"Loading signature `{path.render}` failed: {error.message}"
  | parseSignature path fault => s!"Parsing signature `{path.render}` failed: {fault.text}"
  | openImage path error => s!"Loading image `{path.render}` failed: {error.message}"
  | readImage path error => s!"Reading image `{path.render}` failed: {error.message}"
  | digestImage image fault => s!"Digesting image `{image}` failed: {fault.text}"
  | signingKey fault => fault.text
  | signDigest fault => s!"Signing failed: {fault.message}"
  | signImage stage image fault =>
    s!"{stage.signingText} image `{image}` failed: {fault.message Pss.SigningFault.message}"
  | verifySigned stage image fault =>
    s!"Verifying {stage.signedText} `{image}` failed: {fault.text}"
  | notSigned image certificate fault =>
    s!"Image `{image}` is not signed by `{certificate}`: {fault.text}"
  | noParent path => s!"Path `{path.render}` has no parent directory"
  | createOutput product path error =>
    s!"Creating {product.describe} `{path.render}` failed: {error.message}"
  | writeOutput product error => s!"Writing {product.describe} failed: {error.message}"
  | saveOutput product path error =>
    s!"Saving {product.describe} `{path.render}` failed: failed to persist temporary file: " ++
      s!"{error.message}: {error.message}"
  | createDirectory directory error =>
    s!"Creating output directory `{directory}` failed: {error.message}"
  | noFileName image => s!"Image path `{image}` has no file name"
  | generateKey description => s!"Generating RSA key failed: {description}"
  | encodeKey encoding =>
    s!"Generating {encoding.text} signature key failed: PKCS#8 cryptographic key data malformed"
  | hashKey fault => fault.text

end SecureBoot
