import SecureBoot.Text.Hex
import SecureBoot.Layout
import SecureBoot.Rsa.Basic

/-!
# Faults of keys, blocks, images and signers

A `Fault` is the check that failed, its `Reason`, together with the `Artifact` it was run on when
that is known.  A fault belongs to one of six `Kind`s.

A signer may fail in ways of its own; their type is the parameter `σ`.  Where no signer takes part
it is `Empty`.  `Fault.map` changes the signer's part, and `Fault.widen` lets a fault without a
signer stand where one with a signer is expected.

`Fault.on` names the artifact, unless an earlier attribution has done so.
-/

namespace SecureBoot

inductive Artifact where
  | key
  | block
  | bootImage
  | otaImage
  deriving DecidableEq, Repr

def Artifact.describe : Artifact → String
  | key => "Key"
  | block => "Signature block"
  | bootImage => "Boot-signed image"
  | otaImage => "OTA-signed image"

inductive Kind where
  /-- A block or a raw signature that is not well-formed. -/
  | format
  /-- A checksum or a block hash that does not fit. -/
  | integrity
  /-- A digest or a signature that does not fit. -/
  | authentication
  /-- A key that cannot be read or used. -/
  | key
  /-- An image whose length is not admitted. -/
  | alignment
  | signer
  deriving DecidableEq, Repr

/-- Why a key cannot be used. -/
inductive KeyFault where
  /-- Not a public key or a certificate. -/
  | decode
  /-- Not a public key in the PKCS#1 format. -/
  | decodePkcs1
  | notRsa
  /-- A modulus of so many bits. -/
  | size (bits : Nat)
  /-- A public exponent above 32 bits. -/
  | exponent
  | evenModulus
  | rejected (rejection : Rsa.Rejection)
  deriving DecidableEq, Repr

def KeyFault.message : KeyFault → String
  | decode => "Decoding key failed"
  | decodePkcs1 => "Decoding PKCS#1 key failed"
  | notRsa => "Not an RSA key; Secure Boot V2 requires RSA-3072"
  | size bits => s!"Key has length {bits} bits; Secure Boot V2 only supports RSA-3072"
  | exponent => "RSA public exponent does not fit in 32 bits"
  | evenModulus => "RSA modulus is even"
  | rejected rejection => s!"Invalid RSA key: {rejection.message}"

inductive Reason (σ : Type) where
  | blockLength (length : Nat)
  | magic (found : UInt8)
  | version (found : UInt8)
  | crc (stored computed : UInt32)
  /-- The hash in front of an OTA signature block is not the block's. -/
  | blockHash
  /-- The digest in the block is not the image's. -/
  | digest
  /-- The signature in the block does not verify. -/
  | signature
  /-- An image that is too short, or whose length has another remainder modulo the sector length. -/
  | imageLength (length remainder : Nat)
  | signatureLength (length : Nat)
  | key (fault : KeyFault)
  | signer (failure : σ)
  deriving DecidableEq, Repr

namespace Reason

variable {σ τ : Type}

def kind : Reason σ → Kind
  | blockLength _ | magic _ | version _ | signatureLength _ => .format
  | crc _ _ | blockHash => .integrity
  | digest | signature => .authentication
  | imageLength _ _ => .alignment
  | key _ => .key
  | signer _ => .signer

def map (f : σ → τ) : Reason σ → Reason τ
  | blockLength length => blockLength length
  | magic found => magic found
  | version found => version found
  | crc stored computed => crc stored computed
  | blockHash => blockHash
  | digest => digest
  | signature => signature
  | imageLength length remainder => imageLength length remainder
  | signatureLength length => signatureLength length
  | key fault => key fault
  | signer failure => signer (f failure)

/-- The text of a reason, given the text of a signer's failure. -/
def message (describe : σ → String) : Reason σ → String
  | blockLength length =>
    s!"Signature block has length {length}B, expected {Layout.blockLength}B"
  | magic found =>
    s!"Signature block has invalid magic byte 0x{Hex.number 2 found.toNat}, expected 0x" ++
      Hex.number 2 Layout.magic.toNat
  | version found =>
    s!"Signature block has invalid version {found.toNat}, only version " ++
      s!"{Layout.version.toNat} is supported"
  | crc stored computed =>
    s!"Signature block CRC 0x{Hex.number 8 stored.toNat} does not match, expected 0x" ++
      Hex.number 8 computed.toNat
  | blockHash => "OTA signature hash is invalid"
  | digest => "Signature block image digest does not match the actual image digest"
  | signature => "Invalid RSA-PSS signature"
  | imageLength length remainder =>
    s!"Image length {length}B modulo {Layout.sectorLength}B is not {remainder}B"
  | signatureLength length =>
    s!"Raw signature has length {length}B, expected {Layout.keyLength}B"
  | key fault => fault.message
  | signer failure => s!"Signing failed: {describe failure}"

end Reason

/-- A check that failed, and what it was run on. -/
structure Fault (σ : Type) where
  artifact : Option Artifact
  reason : Reason σ
  deriving DecidableEq, Repr

namespace Fault

variable {σ τ : Type}

/-- A fault whose artifact is not known. -/
def of (reason : Reason σ) : Fault σ :=
  ⟨none, reason⟩

def ofKey (fault : KeyFault) : Fault σ :=
  ⟨some .key, .key fault⟩

/-- The fault attributed to an artifact, unless it already is attributed to one. -/
def on (artifact : Artifact) (fault : Fault σ) : Fault σ :=
  { fault with artifact := some (fault.artifact.getD artifact) }

def kind (fault : Fault σ) : Kind :=
  fault.reason.kind

def map (f : σ → τ) (fault : Fault σ) : Fault τ :=
  ⟨fault.artifact, fault.reason.map f⟩

/-- A fault without a signer, as one of a signing operation. -/
def widen (fault : Fault Empty) : Fault σ :=
  fault.map Empty.elim

/-- The text of a fault, given the text of a signer's failure. -/
def message (describe : σ → String) (fault : Fault σ) : String :=
  match fault.artifact with
  | some artifact => s!"{artifact.describe}: {fault.reason.message describe}"
  | none => fault.reason.message describe

end Fault

/-- The result of a check in which no signer takes part. -/
abbrev Checked (α : Type) := Except (Fault Empty) α

end SecureBoot
