import SecureBoot.Command.Loading
import SecureBoot.Command.Publishing
import SecureBoot.KeyFile.PublicKeyInfo

/-!
# Generating keys

`Command.runGenerateKey` has the host make a private key and saves it, and then its public key and
the hash of that, where they are asked for.  Each of the files is in place before the next one is
written.
-/

namespace SecureBoot

variable {m : Type → Type} [Monad m] [Host m]

namespace KeySource

/-- A key in binary form as the content of a file. -/
def armour (source : KeySource) (data : Bytes) : Bytes :=
  match source.encoding with
  | .pem => Pem.encode source.label data
  | .der => data

/-- The content of the file for a key; a salt is drawn if there is a password. -/
def encode (source : KeySource) (key : Rsa.PrivateKey) : Action m Bytes := do
  let info ← Action.ofOption (PrivateKeyInfo.ofRsa? key) (.encodeKey source.encoding)
  match source.password with
  | none => return source.armour info
  | some password => do
    let salt ← (Host.drawSalt : m Salt)
    let envelope := EncryptedKey.Envelope.ofSalt salt (Utf8.encode password) info
    return source.armour envelope.toElement.encode

def save (source : KeySource) (key : Rsa.PrivateKey) : Action m Unit := do
  Action.say [Report.keyGenerated source.password.isSome]
  let content ← source.encode key
  Action.publish [⟨.key, source.path, content⟩] []

end KeySource

/-- A public key as a text. -/
def Rsa.PublicKey.toPem (key : Rsa.PublicKey) : Bytes :=
  Pem.encode "PUBLIC KEY" (PublicKeyInfo.ofRsa key).toElement.encode

namespace Command

open SecureBoot.Action

def runGenerateKey (source : KeySource) (publicKey hash : Option String) : Action m Unit := do
  say [Report.generatingKey]
  let key ← ask Host.generateKey .generateKey
  source.save key
  publicKey.forM fun path =>
    publish [⟨.publicKey, path, key.toPublicKey.toPem⟩] []
  hash.forM fun path => do
    let record ← makeRecord key .hashKey
    publish [⟨.hash, path, record.hash.toBytes⟩] [Report.keyHash record]

end Command

end SecureBoot
