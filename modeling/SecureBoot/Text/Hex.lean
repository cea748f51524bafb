import SecureBoot.Bytes

/-!
# Hexadecimal text

* `Hex.number` writes a number in base 16 with at least a given number of digits.
* `Hex.bytes` writes an octet string, two digits per octet.

All digits are lower case.
-/

namespace SecureBoot.Hex

/-- A number in base 16, filled up with zeros on the left to at least `width` digits. -/
def number (width n : Nat) : String :=
  let digits := Nat.toDigits 16 n
  String.ofList (List.replicate (width - digits.length) '0' ++ digits)

/-- One octet as two digits. -/
def octet (b : UInt8) : List Char :=
  [Nat.digitChar (b.toNat / 16), Nat.digitChar (b.toNat % 16)]

/-- An octet string, two digits per octet. -/
def bytes (bs : Bytes) : String :=
  String.ofList (bs.flatMap octet)

end SecureBoot.Hex
