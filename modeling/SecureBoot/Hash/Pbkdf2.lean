import SecureBoot.Hash.Hmac

/-!
# PBKDF2

The key derivation of RFC 8018 with HMAC as its pseudorandom function: `Pbkdf2.deriveKey` gives a
key of any length, made of as many blocks as it takes.
-/

namespace SecureBoot.Pbkdf2

/-- Exclusive or of two strings of one length. -/
def combine {n : Nat} (a b : Octets n) : Octets n :=
  ⟨xorBytes a.toBytes b.toBytes, by simp⟩

variable (hash : Sha2) (password : Bytes)

/-- `n` more rounds: the code is taken of the last code, and all codes are combined. -/
def iterate : Nat → Octets hash.digestLength → Octets hash.digestLength → Octets hash.digestLength
  | 0, _, combined => combined
  | n + 1, last, combined =>
    let next := Hmac.digest hash password last.toBytes
    iterate n next (combine combined next)

/-- The block of the key with a number, counted from one; a count of zero stands for one. -/
def block (salt : Bytes) (iterations number : Nat) : Octets hash.digestLength :=
  let first := Hmac.digest hash password (salt ++ bigEndianBytes 4 number)
  iterate hash password (iterations - 1) first first

/-- As many blocks as a length takes, and one more. -/
def blocks (salt : Bytes) (iterations length : Nat) : Bytes :=
  (List.range (length / hash.digestLength + 1)).flatMap fun i =>
    (block hash password salt iterations (i + 1)).toBytes

theorem le_length_blocks (salt : Bytes) (iterations length : Nat) :
    length ≤ (blocks hash password salt iterations length).length := by
  have hpos : 0 < hash.digestLength := by
    cases hash <;> decide
  have hlt := Nat.lt_div_mul_add hpos (a := length)
  simp only [blocks, List.length_flatMap, Octets.length_toBytes, List.map_const', List.length_range,
    List.sum_replicate_nat, Nat.add_mul]
  omega

/-- The key of a given length derived from a password. -/
def deriveKey (salt : Bytes) (iterations length : Nat) : Octets length where
  toBytes := (blocks hash password salt iterations length).take length
  length_toBytes := List.length_take_of_le (le_length_blocks hash password salt iterations length)

end SecureBoot.Pbkdf2
