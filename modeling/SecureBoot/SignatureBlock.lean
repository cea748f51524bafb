import SecureBoot.Hash.Crc32
import SecureBoot.KeyRecord
import SecureBoot.Rsa.Pss

/-!
# Signature blocks

A `SignatureBlock` is the 1216-octet record behind a signed image: magic octet and version, the
digest of the signed content, the key record, the signature and a checksum.

* `SignatureBlock.pack` assembles a block; `toOctets` writes it.
* `SignatureBlock.parse` reads a block of the right length, `validate` checks magic octet, version
  and checksum, and `unpack` does both.
* `SignatureBlock.verifyDigest` checks a digest and the signature over it against a trusted key.
  The key in the block is for the hardware; nothing is trusted because of it.
-/

namespace SecureBoot

/-- A signature, most significant octet first. -/
abbrev Signature := Octets Layout.keyLength

structure SignatureBlock where
  magic : UInt8
  version : UInt8
  /-- Two octets without a meaning. -/
  reserved : Octets 2
  /-- The digest of the signed content. -/
  digest : Digest
  /-- The key that the hardware uses. -/
  key : KeyRecord
  /-- The signature, least significant octet first. -/
  storedSignature : Octets Layout.keyLength
  /-- The checksum, least significant octet first. -/
  storedCrc : Octets 4
  /-- Sixteen octets without a meaning. -/
  padding : Octets 16
  deriving DecidableEq, Repr

namespace SignatureBlock

/-! ## Fields -/

/-- The signature. -/
def signature (block : SignatureBlock) : Signature :=
  block.storedSignature.reverse

/-- The checksum that the block holds. -/
def crc (block : SignatureBlock) : UInt32 :=
  UInt32.ofNat block.storedCrc.toNat

/-! ## Octets -/

/-- What the checksum is over: all fields before it. -/
def head (block : SignatureBlock) : Bytes :=
  block.magic :: block.version :: (block.reserved.toBytes ++ block.digest.toBytes ++
    block.key.toOctets.toBytes ++ block.storedSignature.toBytes)

/-- A block in the order of its fields. -/
def toOctets (block : SignatureBlock) : Octets Layout.blockLength :=
  ⟨block.head ++ block.storedCrc.toBytes ++ block.padding.toBytes, by
    simp only [head, List.length_append, List.length_cons, Octets.length_toBytes]
    rfl⟩

/-- A block as an octet string. -/
def toBytes (block : SignatureBlock) : Bytes :=
  block.toOctets.toBytes

/-- The block that 1216 octets hold. -/
def ofOctets (data : Octets Layout.blockLength) : SignatureBlock where
  magic := data.get Layout.magicOffset (by decide)
  version := data.get Layout.versionOffset (by decide)
  reserved := data.slice Layout.reservedOffset 2 (by decide)
  digest := data.slice Layout.digestOffset 32 (by decide)
  key := KeyRecord.ofOctets (data.slice Layout.modulusOffset Layout.keyRecordLength (by decide))
  storedSignature := data.slice Layout.signatureOffset Layout.keyLength (by decide)
  storedCrc := data.slice Layout.crcOffset 4 (by decide)
  padding := data.slice Layout.paddingOffset 16 (by decide)

/-- The block that an octet string holds, if the string has the right length. -/
def parse (data : Bytes) : Checked SignatureBlock :=
  match Octets.ofBytes? Layout.blockLength data with
  | some octets => .ok (ofOctets octets)
  | none => .error (Fault.of (.blockLength data.length))

/-! ## Validity -/

/-- The checksum that the block should hold. -/
def computedCrc (block : SignatureBlock) : UInt32 :=
  Crc32.checksum block.head

/-- Check magic octet, version and checksum, in this order. -/
def validate (block : SignatureBlock) : Checked Unit :=
  if block.magic ≠ Layout.magic then .error (Fault.of (.magic block.magic))
  else if block.version ≠ Layout.version then .error (Fault.of (.version block.version))
  else if block.crc ≠ block.computedCrc then
    .error (Fault.of (.crc block.crc block.computedCrc))
  else .ok ()

/-- The valid block that an octet string holds. -/
def unpack (data : Bytes) : Checked SignatureBlock := do
  let block ← parse data
  block.validate
  return block

/-! ## Assembly -/

/-- The same block with the checksum it should hold. -/
def withCrc (block : SignatureBlock) : SignatureBlock :=
  { block with storedCrc := Octets.ofNat 4 block.computedCrc.toNat }

/-- The block for a digest, with the signature over it and the key that verifies the signature. -/
def pack (digest : Digest) (key : KeyRecord) (signature : Signature) : SignatureBlock :=
  withCrc {
    magic := Layout.magic
    version := Layout.version
    reserved := Octets.fill 2 0
    digest := digest
    key := key
    storedSignature := signature.reverse
    storedCrc := Octets.fill 4 0
    padding := Octets.fill 16 0 }

/-- The block assembled anew from its digest, key and signature. -/
def repack (block : SignatureBlock) : SignatureBlock :=
  pack block.digest block.key block.signature

/-! ## Verification -/

/-- Check that the block holds a digest, and the signature over it against a trusted key. -/
def verifyDigest (block : SignatureBlock) (digest : Digest) (trusted : Rsa.PublicKey) :
    Checked Unit :=
  if digest ≠ block.digest then .error (Fault.of .digest)
  else if Pss.verify trusted digest block.signature.toBytes then .ok ()
  else .error (Fault.of .signature)

end SignatureBlock

end SecureBoot
