import SecureBoot.Bytes

/-!
# CRC-32/ISO-HDLC

The cyclic redundancy check with the reflected generator `0xEDB88320`, all bits of the register set
at the start and all flipped at the end.  The bits of an octet enter least significant first.
-/

namespace SecureBoot.Crc32

/-- The generator polynomial without its leading term, bits reversed. -/
def generator : UInt32 := 0xedb88320

/-- The register shifted by one bit, and reduced by the generator when a bit falls out. -/
def shift (register : UInt32) : UInt32 :=
  if register &&& 1 = 1 then (register >>> 1) ^^^ generator else register >>> 1

/-- The register after one more octet. -/
def feed (register : UInt32) (b : UInt8) : UInt32 :=
  Nat.repeat shift 8 (register ^^^ b.toUInt32)

/-- The register after a string. -/
def feedAll (register : UInt32) (bs : Bytes) : UInt32 :=
  bs.foldl feed register

def checksum (bs : Bytes) : UInt32 :=
  feedAll 0xffffffff bs ^^^ 0xffffffff

theorem feedAll_append (register : UInt32) (xs ys : Bytes) :
    feedAll register (xs ++ ys) = feedAll (feedAll register xs) ys :=
  List.foldl_append

end SecureBoot.Crc32
