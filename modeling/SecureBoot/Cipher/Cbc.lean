import SecureBoot.Cipher.Aes

/-!
# AES in cipher block chaining mode

`Cbc.encrypt` fills a string up to whole blocks and encrypts it, each block combined with the
encrypted block before it.  `Cbc.decrypt?` undoes this: the last octet says how many octets to take
off, and all of these must be equal to it.
-/

namespace SecureBoot.Cbc

abbrev blockLength : Nat := 16

/-! ## Padding -/

/-- A string filled up to whole blocks with between one octet and one block. -/
def pad (data : Bytes) : Bytes :=
  let count := blockLength - data.length % blockLength
  data ++ List.replicate count (UInt8.ofNat count)

/-- A string without its padding, which is between one octet and one block long. -/
def unpad? (data : Bytes) : Option Bytes :=
  match data.reverse with
  | [] => none
  | last :: _ =>
    let count := last.toNat
    let padding := data.drop (data.length - count)
    if 1 ≤ count ∧ count ≤ blockLength ∧ padding = List.replicate count last then
      some (data.take (data.length - count))
    else none

/-! ## Blocks -/

/-- The blocks of a string encrypted, each combined with the encrypted block before it. -/
def encryptBlocks (keys : List Bytes) (previous data : Bytes) : Bytes :=
  match data with
  | [] => []
  | b :: bs =>
    let block := Aes.encryptBlock keys (xorBytes previous ((b :: bs).take blockLength))
    block ++ encryptBlocks keys block ((b :: bs).drop blockLength)
termination_by data.length
decreasing_by
  simp only [List.length_drop, List.length_cons, blockLength]
  omega

/-- The blocks of a string decrypted; none if the string does not consist of whole blocks. -/
def decryptBlocks? (keys : List Bytes) (previous data : Bytes) : Option Bytes :=
  match data with
  | [] => some []
  | b :: bs =>
    let block := (b :: bs).take blockLength
    if block.length = blockLength then
      (decryptBlocks? keys block ((b :: bs).drop blockLength)).map
        (xorBytes previous (Aes.decryptBlock keys block) ++ ·)
    else none
termination_by data.length
decreasing_by
  simp only [List.length_drop, List.length_cons, blockLength]
  omega

/-! ## Strings -/

variable (size : Aes.KeySize) (key : Octets size.length) (start : Octets blockLength)

/-- A string encrypted with a key and a start value. -/
def encrypt (data : Bytes) : Bytes :=
  encryptBlocks (Aes.roundKeys size key) start.toBytes (pad data)

/-- The string that was encrypted with a key and a start value. -/
def decrypt? (data : Bytes) : Option Bytes := do
  unpad? (← decryptBlocks? (Aes.roundKeys size key) start.toBytes data)

end SecureBoot.Cbc
