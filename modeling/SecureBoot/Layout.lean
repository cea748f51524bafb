/-!
# Layout of the signed artifacts

Lengths, offsets and fixed octets of signature blocks and signed images.  The boot loader in ROM
dictates all of them.  An offset is counted from the start of the signature block.
-/

namespace SecureBoot.Layout

/-- Flash is organised in sectors: images are padded to whole ones, and a signature block has one
of its own. -/
abbrev sectorLength : Nat := 4096

/-- What pads images and the rest of a signature sector. -/
abbrev fillOctet : UInt8 := 0xff

abbrev magic : UInt8 := 0xe7

abbrev version : UInt8 := 2

/-- The only length of an RSA modulus, in bits. -/
abbrev keyBits : Nat := 3072

/-- The length of a modulus or a signature. -/
abbrev keyLength : Nat := keyBits / 8

/-- The length of the salt of a PSS signature. -/
abbrev saltLength : Nat := 32

/-- The length of a SHA-256 digest. -/
abbrev digestLength : Nat := 32

abbrev magicOffset : Nat := 0

abbrev versionOffset : Nat := 1

abbrev reservedOffset : Nat := 2

abbrev digestOffset : Nat := 4

abbrev modulusOffset : Nat := digestOffset + digestLength

abbrev exponentOffset : Nat := modulusOffset + keyLength

abbrev rrOffset : Nat := exponentOffset + 4

abbrev mOffset : Nat := rrOffset + keyLength

abbrev signatureOffset : Nat := mOffset + 4

abbrev crcOffset : Nat := signatureOffset + keyLength

abbrev paddingOffset : Nat := crcOffset + 4

/-- The length of the key record inside a signature block. -/
abbrev keyRecordLength : Nat := signatureOffset - modulusOffset

/-- The checksum is over everything before it. -/
abbrev crcCoverage : Nat := crcOffset

abbrev blockLength : Nat := paddingOffset + 16

/-- The length of the hash in front of an OTA signature block. -/
abbrev otaHashLength : Nat := digestLength

/-- The length of the record behind an OTA-signed image: the hash of a block, and the block. -/
abbrev otaRecordLength : Nat := otaHashLength + blockLength

theorem blockLength_eq : blockLength = 1216 := rfl

theorem otaRecordLength_eq : otaRecordLength = 1248 := rfl

end SecureBoot.Layout
