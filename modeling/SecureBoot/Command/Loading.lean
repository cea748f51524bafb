import SecureBoot.Command.Action
import SecureBoot.Command.Report
import SecureBoot.KeyFile.EncryptedKey
import SecureBoot.KeyFile.Format

/-!
# What commands load

* `Action.loadCertificate` loads the key that a certificate or a file with a public key holds.
* `KeySource.load` loads a private key.
* `SigningSource.load` loads what signs an image, its `SigningMaterial`.
* `Action.loadImage` loads an image.
-/

namespace SecureBoot

variable {m : Type → Type} [Monad m] [Host m]

/-! ## Certificates and images -/

namespace Action

def loadCertificate (certificate : String) : Action m KeyRecord := do
  let path ← locate certificate
  let data ← ask (Host.readFile path) fun fault => .loadCertificate path fault.error
  let key ← ofResult (KeyRecord.load (KeyFormat.detect data) data) (.parseCertificate path)
  say (Report.certificateLoaded key path)
  return key

def loadImage (image : String) : Action m Bytes := do
  let path ← locate image
  ask (Host.readFile path) fun
    | .opening error => .openImage path error
    | .reading error => .readImage path error

/-- Make the record of a private key. -/
def makeRecord (key : Rsa.PrivateKey) (failure : Fault Empty → Failure) : Action m KeyRecord := do
  let record ← ofResult (KeyRecord.create key.toPublicKey) failure
  say [Report.keyMade record]
  return record

end Action

/-! ## Private keys -/

namespace KeySource

/-- The label of a private key in PEM text. -/
def label (source : KeySource) : String :=
  if source.password.isSome then "ENCRYPTED PRIVATE KEY" else "PRIVATE KEY"

/-- The private key in binary form, under the password if there is one. -/
def ofBinary? (source : KeySource) (data : Bytes) : Option Rsa.PrivateKey :=
  match source.password with
  | some password => do
    (← EncryptedKey.Envelope.ofBytes? data).rsaKey? (Utf8.encode password)
  | none => PrivateKeyInfo.rsaKey? data

/-- The private key in the content of a file, if it has the form that is asked for. -/
def ofContent? (source : KeySource) (data : Bytes) : Option Rsa.PrivateKey :=
  match source.encoding with
  | .pem => (Pem.decode? source.label data).bind source.ofBinary?
  | .der => source.ofBinary? data

/-- The private key in the content of a file; PEM must be well-formed text. -/
def decode (source : KeySource) (data : Bytes) : Except Failure Rsa.PrivateKey :=
  if source.encoding = .pem ∧ Utf8.decode? data = none then .error .keyNotText
  else
    match source.ofContent? data with
    | some key => .ok key
    | none => .error (.parseKey source.encoding)

def load (source : KeySource) : Action m Rsa.PrivateKey := do
  let path ← Action.locate source.path
  Action.say [Report.loadingKey source.password.isSome path]
  let data ← Action.ask (Host.readFile path) fun fault => .loadKey fault.error
  let key ← Action.ofResult (source.decode data) id
  Action.say [Report.keyLoaded]
  return key

end KeySource

/-! ## Signing material -/

inductive SigningMaterial where
  | privateKey (key : SigningKey)
  | presigned (signature : Signature)

namespace SigningMaterial

def signer (material : SigningMaterial) : Signer m Pss.SigningFault :=
  match material with
  | privateKey key => key.signer Host.drawSalt
  | presigned signature => Signer.presigned signature

/-- A private key as material, with its record. -/
def ofPrivateKey (stage : Option Stage) (key : Rsa.PrivateKey) :
    Action m (SigningMaterial × KeyRecord) := do
  let record ← Action.makeRecord key (.unsupportedKey stage)
  let key ← Action.ofResult (SigningKey.ofPrivateKey key) (.unsupportedKey stage)
  return (privateKey key, record)

def loadSignature (signature : String) : Action m SigningMaterial := do
  let path ← Action.locate signature
  let data ← Action.ask (Host.readFile path) fun fault => .loadSignature path fault.error
  return presigned (← Action.ofResult (Signature.ofBytes data) (.parseSignature path))

end SigningMaterial

/-- Load what signs an image, and the key that verifies it.  A certificate beside a private key
must be of that key. -/
def SigningSource.load (source : SigningSource) : Action m (SigningMaterial × KeyRecord) :=
  match source with
  | privateKey key certificate => do
    -- The certificate comes first, so that its failures do.
    let trusted ← certificate.mapM Action.loadCertificate
    let (material, record) ← SigningMaterial.ofPrivateKey none (← key.load)
    match trusted with
    | some trusted => if trusted ≠ record then throw .certificateMismatch
    | none => pure ()
    return (material, record)
  | presigned signature certificate => do
    let trusted ← Action.loadCertificate certificate
    return (← SigningMaterial.loadSignature signature, trusted)

end SecureBoot
