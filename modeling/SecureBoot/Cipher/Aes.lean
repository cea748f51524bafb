import SecureBoot.Bytes

/-!
# AES

The block cipher of FIPS 197 with a key of 128, 192 or 256 bits: `Aes.encryptBlock`, and
`Aes.decryptBlock`, which undoes it.  Both work with the round keys of a key, `Aes.roundKeys`.  The
S-boxes are not copied: they are computed from their definition, inversion in the field of 256
elements and an affine map.

A state is sixteen octets, column by column.
-/

namespace SecureBoot.Aes

/-! ## The field -/

/-- The product with the polynomial `x`. -/
def double (b : UInt8) : UInt8 :=
  if b.toNat < 0x80 then b <<< 1 else (b <<< 1) ^^^ 0x1b

/-- The product of two elements, from the `n` low bits of the second. -/
def mulBits : Nat → UInt8 → UInt8 → UInt8
  | 0, _, _ => 0
  | n + 1, a, b => (if b.toNat % 2 = 1 then a else 0) ^^^ mulBits n (double a) (b >>> 1)

def mul (a b : UInt8) : UInt8 := mulBits 8 a b

def square (a : UInt8) : UInt8 := mul a a

/-- The inverse of an element, its power by 254; zero for zero. -/
def inverse (a : UInt8) : UInt8 :=
  square (Nat.repeat (fun p => mul (square p) a) 6 a)

/-! ## The S-boxes -/

/-- An octet rotated left by `n` bits, `0 < n < 8`. -/
def rotateLeft (b n : UInt8) : UInt8 :=
  (b <<< n) ||| (b >>> (8 - n))

/-- The affine map of the S-box. -/
def affine (b : UInt8) : UInt8 :=
  b ^^^ rotateLeft b 1 ^^^ rotateLeft b 2 ^^^ rotateLeft b 3 ^^^ rotateLeft b 4 ^^^ 0x63

/-- The inverse of the affine map. -/
def unaffine (b : UInt8) : UInt8 :=
  rotateLeft b 1 ^^^ rotateLeft b 3 ^^^ rotateLeft b 6 ^^^ 0x05

/-- What the S-box puts in place of an octet. -/
def substitute (b : UInt8) : UInt8 :=
  affine (inverse b)

/-- The octet in whose place the S-box puts another one. -/
def unsubstitute (b : UInt8) : UInt8 :=
  inverse (unaffine b)

def tabulate (f : UInt8 → UInt8) : Vector UInt8 256 :=
  Vector.ofFn fun i => f (UInt8.ofNat i.val)

def look (table : Vector UInt8 256) (b : UInt8) : UInt8 :=
  table.get ⟨b.toNat, b.toNat_lt⟩

def substitutes : Vector UInt8 256 := tabulate substitute

def unsubstitutes : Vector UInt8 256 := tabulate unsubstitute

/-! ## Round keys -/

inductive KeySize where
  | bits128
  | bits192
  | bits256
  deriving DecidableEq, Repr

namespace KeySize

/-- The number of words of a key. -/
def words : KeySize → Nat
  | bits128 => 4
  | bits192 => 6
  | bits256 => 8

/-- The number of octets of a key. -/
def length (size : KeySize) : Nat :=
  4 * size.words

def rounds (size : KeySize) : Nat :=
  size.words + 6

end KeySize

/-- A string in words of four octets; what is left over is dropped. -/
def words : Bytes → List Bytes
  | a :: b :: c :: d :: rest => [a, b, c, d] :: words rest
  | _ => []

/-- A word with its first octet moved to the end. -/
def rotateWord : Bytes → Bytes
  | [] => []
  | b :: bs => bs ++ [b]

/-- The product of `n` factors `x`. -/
def roundConstant (n : Nat) : UInt8 :=
  Nat.repeat double n 1

/-- The words of the key schedule from the `i`-th on, `n` of them, put in front of those before; all
stand latest first. -/
def extendKey (size : KeySize) : Nat → Nat → List Bytes → List Bytes
  | 0, _, ws => ws
  | n + 1, i, ws =>
    let last := ws.headD []
    let mixed :=
      if i % size.words = 0 then
        xorBytes ((rotateWord last).map (look substitutes))
          [roundConstant (i / size.words - 1), 0, 0, 0]
      else if 6 < size.words ∧ i % size.words = 4 then last.map (look substitutes)
      else last
    let next := xorBytes ((ws.drop (size.words - 1)).headD []) mixed
    extendKey size n (i + 1) (next :: ws)

/-- Four words at a time as round keys. -/
def groupWords : List Bytes → List Bytes
  | a :: b :: c :: d :: rest => (a ++ b ++ c ++ d) :: groupWords rest
  | _ => []

/-- The round keys of a key. -/
def roundKeys (size : KeySize) (key : Octets size.length) : List Bytes :=
  let count := 4 * (size.rounds + 1)
  groupWords
    (extendKey size (count - size.words) size.words (words key.toBytes).reverse).reverse

/-! ## Rounds -/

/-- The rows of the square of sixteen octets rotated, each by its number. -/
def shiftRows : Bytes → Bytes
  | [s0, s1, s2, s3, s4, s5, s6, s7, s8, s9, s10, s11, s12, s13, s14, s15] =>
    [s0, s5, s10, s15, s4, s9, s14, s3, s8, s13, s2, s7, s12, s1, s6, s11]
  | state => state

/-- The rows rotated back. -/
def unshiftRows : Bytes → Bytes
  | [s0, s1, s2, s3, s4, s5, s6, s7, s8, s9, s10, s11, s12, s13, s14, s15] =>
    [s0, s13, s10, s7, s4, s1, s14, s11, s8, s5, s2, s15, s12, s9, s6, s3]
  | state => state

section Columns

variable (p q r s : UInt8)

def dot (a b c d : UInt8) : UInt8 :=
  mul p a ^^^ mul q b ^^^ mul r c ^^^ mul s d

/-- The columns multiplied with the polynomial of these coefficients. -/
def multiplyColumns : Bytes → Bytes
  | a :: b :: c :: d :: rest =>
    dot p q r s a b c d :: dot p q r s b c d a :: dot p q r s c d a b :: dot p q r s d a b c ::
      multiplyColumns rest
  | _ => []

end Columns

def mixColumns (state : Bytes) : Bytes :=
  multiplyColumns 2 3 1 1 state

/-- The columns multiplied with the inverse of the polynomial. -/
def unmixColumns (state : Bytes) : Bytes :=
  multiplyColumns 14 11 13 9 state

/-- The octets replaced and the rows rotated. -/
def scramble (state : Bytes) : Bytes :=
  shiftRows (state.map (look substitutes))

def unscramble (state : Bytes) : Bytes :=
  (unshiftRows state).map (look unsubstitutes)

/-- The rounds, one for each key; the columns are not mixed in the last one. -/
def doRounds (state : Bytes) : List Bytes → Bytes
  | [] => state
  | [key] => xorBytes (scramble state) key
  | key :: more => doRounds (xorBytes (mixColumns (scramble state)) key) more

/-- The rounds undone, from the last one on. -/
def undoRounds (state : Bytes) : List Bytes → Bytes
  | [] => state
  | [key] => unscramble (xorBytes state key)
  | key :: more => unscramble (unmixColumns (xorBytes (undoRounds state more) key))

/-! ## Blocks -/

/-- A block encrypted with the round keys of a key. -/
def encryptBlock (keys : List Bytes) (block : Bytes) : Bytes :=
  match keys with
  | [] => block
  | key :: more => doRounds (xorBytes block key) more

/-- A block decrypted with the round keys of a key. -/
def decryptBlock (keys : List Bytes) (block : Bytes) : Bytes :=
  match keys with
  | [] => block
  | key :: more => xorBytes (undoRounds block more) key

end SecureBoot.Aes
