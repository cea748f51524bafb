import SecureBoot.Bytes

/-!
# SHA-512 and SHA-384

The two hash functions of FIPS 180-4 over words of 64 bits: `Sha512.digest`, and `Sha512.digest384`,
which starts from another chaining value and gives the first 48 octets of the last one.
-/

namespace SecureBoot.Sha512

/-! ## The compression function -/

/-- The chaining value: eight words, which are also the working variables of a round. -/
structure Chain where
  a : UInt64
  b : UInt64
  c : UInt64
  d : UInt64
  e : UInt64
  f : UInt64
  g : UInt64
  h : UInt64
  deriving DecidableEq, Repr

/-- The chaining value before the first block. -/
def initial : Chain where
  a := 0x6a09e667f3bcc908
  b := 0xbb67ae8584caa73b
  c := 0x3c6ef372fe94f82b
  d := 0xa54ff53a5f1d36f1
  e := 0x510e527fade682d1
  f := 0x9b05688c2b3e6c1f
  g := 0x1f83d9abfb41bd6b
  h := 0x5be0cd19137e2179

/-- The chaining value before the first block for the shorter digest. -/
def initial384 : Chain where
  a := 0xcbbb9d5dc1059ed8
  b := 0x629a292a367cd507
  c := 0x9159015a3070dd17
  d := 0x152fecd8f70e5939
  e := 0x67332667ffc00b31
  f := 0x8eb44a8768581511
  g := 0xdb0c2e0d64f98fa7
  h := 0x47b5481dbefa4fa4

def roundConstants : List UInt64 := [
  0x428a2f98d728ae22, 0x7137449123ef65cd, 0xb5c0fbcfec4d3b2f, 0xe9b5dba58189dbbc,
  0x3956c25bf348b538, 0x59f111f1b605d019, 0x923f82a4af194f9b, 0xab1c5ed5da6d8118,
  0xd807aa98a3030242, 0x12835b0145706fbe, 0x243185be4ee4b28c, 0x550c7dc3d5ffb4e2,
  0x72be5d74f27b896f, 0x80deb1fe3b1696b1, 0x9bdc06a725c71235, 0xc19bf174cf692694,
  0xe49b69c19ef14ad2, 0xefbe4786384f25e3, 0x0fc19dc68b8cd5b5, 0x240ca1cc77ac9c65,
  0x2de92c6f592b0275, 0x4a7484aa6ea6e483, 0x5cb0a9dcbd41fbd4, 0x76f988da831153b5,
  0x983e5152ee66dfab, 0xa831c66d2db43210, 0xb00327c898fb213f, 0xbf597fc7beef0ee4,
  0xc6e00bf33da88fc2, 0xd5a79147930aa725, 0x06ca6351e003826f, 0x142929670a0e6e70,
  0x27b70a8546d22ffc, 0x2e1b21385c26c926, 0x4d2c6dfc5ac42aed, 0x53380d139d95b3df,
  0x650a73548baf63de, 0x766a0abb3c77b2a8, 0x81c2c92e47edaee6, 0x92722c851482353b,
  0xa2bfe8a14cf10364, 0xa81a664bbc423001, 0xc24b8b70d0f89791, 0xc76c51a30654be30,
  0xd192e819d6ef5218, 0xd69906245565a910, 0xf40e35855771202a, 0x106aa07032bbd1b8,
  0x19a4c116b8d2d0c8, 0x1e376c085141ab53, 0x2748774cdf8eeb99, 0x34b0bcb5e19b48a8,
  0x391c0cb3c5c95a63, 0x4ed8aa4ae3418acb, 0x5b9cca4f7763e373, 0x682e6ff3d6b2b8a3,
  0x748f82ee5defb2fc, 0x78a5636f43172f60, 0x84c87814a1f0ab72, 0x8cc702081a6439ec,
  0x90befffa23631e28, 0xa4506cebde82bde9, 0xbef9a3f7b2c67915, 0xc67178f2e372532b,
  0xca273eceea26619c, 0xd186b8c721c0c207, 0xeada7dd6cde0eb1e, 0xf57d4f7fee6ed178,
  0x06f067aa72176fba, 0x0a637dc5a2c898a6, 0x113f9804bef90dae, 0x1b710b35131c471b,
  0x28db77f523047d84, 0x32caab7b40c72493, 0x3c9ebe0a15c9bebc, 0x431d67c49c100d4c,
  0x4cc5d4becb3e42b6, 0x597f299cfc657e2a, 0x5fcb6fab3ad6faec, 0x6c44198c4a475817]

/-- A word rotated right by `n` bits, `0 < n < 64`. -/
def rotateRight (x n : UInt64) : UInt64 :=
  (x >>> n) ||| (x <<< (64 - n))

def bigSigma0 (x : UInt64) : UInt64 := rotateRight x 28 ^^^ rotateRight x 34 ^^^ rotateRight x 39

def bigSigma1 (x : UInt64) : UInt64 := rotateRight x 14 ^^^ rotateRight x 18 ^^^ rotateRight x 41

def smallSigma0 (x : UInt64) : UInt64 := rotateRight x 1 ^^^ rotateRight x 8 ^^^ (x >>> 7)

def smallSigma1 (x : UInt64) : UInt64 := rotateRight x 19 ^^^ rotateRight x 61 ^^^ (x >>> 6)

/-- Bit by bit, `y` where `x` is set and `z` elsewhere. -/
def choose (x y z : UInt64) : UInt64 := (x &&& y) ^^^ (~~~x &&& z)

/-- Bit by bit, what at least two of the three words hold. -/
def majority (x y z : UInt64) : UInt64 := (x &&& y) ^^^ (x &&& z) ^^^ (y &&& z)

/-- One round; `kw` is the sum of the round's constant and its schedule word. -/
def round (v : Chain) (kw : UInt64) : Chain :=
  let t1 := v.h + bigSigma1 v.e + choose v.e v.f v.g + kw
  let t2 := bigSigma0 v.a + majority v.a v.b v.c
  { a := t1 + t2, b := v.a, c := v.b, d := v.c, e := v.d + t1, f := v.e, g := v.f, h := v.g }

/-- The schedule word after the given ones, which stand latest first. -/
def nextWord : List UInt64 → UInt64
  | _ :: w14 :: _ :: _ :: _ :: _ :: w9 :: _ :: _ :: _ :: _ :: _ :: _ :: _ :: w1 :: w0 :: _ =>
    smallSigma1 w14 + w9 + smallSigma0 w1 + w0
  | _ => 0

/-- `n` more schedule words in front of the given ones; all stand latest first. -/
def extendSchedule : Nat → List UInt64 → List UInt64
  | 0, words => words
  | n + 1, words => extendSchedule n (nextWord words :: words)

/-- The eighty schedule words of a block of sixteen. -/
def schedule (block : List UInt64) : List UInt64 :=
  (extendSchedule 64 block.reverse).reverse

/-- The chaining value after one more block of sixteen words. -/
def compress (v : Chain) (block : List UInt64) : Chain :=
  let w := (List.zipWith (· + ·) roundConstants (schedule block)).foldl round v
  { a := v.a + w.a, b := v.b + w.b, c := v.c + w.c, d := v.d + w.d
    e := v.e + w.e, f := v.f + w.f, g := v.g + w.g, h := v.h + w.h }

/-! ## Hashing -/

/-- The length of a block. -/
abbrev blockLength : Nat := 128

/-- A string as words of eight octets, most significant first; what is left over is dropped. -/
def words : Bytes → List UInt64
  | b0 :: b1 :: b2 :: b3 :: b4 :: b5 :: b6 :: b7 :: rest =>
    UInt64.ofNat (bigEndian [b0, b1, b2, b3, b4, b5, b6, b7]) :: words rest
  | _ => []

/-- The chaining value after the first `n` blocks of a string. -/
def absorb : Nat → Chain → Bytes → Chain
  | 0, v, _ => v
  | n + 1, v, bs => absorb n (compress v (words (bs.take blockLength))) (bs.drop blockLength)

/-- What stands behind a message of `len` octets: a one bit, zeros up to sixteen octets before the
end of a block, and the number of bits. -/
def padding (len : Nat) : Bytes :=
  0x80 :: List.replicate ((239 - len % 128) % 128) 0 ++ bigEndianBytes 16 (8 * len)

/-- The last chaining value of a string, as octets. -/
def hashFrom (start : Chain) (bs : Bytes) : Octets 64 :=
  let padded := bs ++ padding bs.length
  let v := absorb (padded.length / blockLength) start padded
  ⟨[v.a, v.b, v.c, v.d, v.e, v.f, v.g, v.h].flatMap fun w => bigEndianBytes 8 w.toNat, by simp⟩

def digest (bs : Bytes) : Octets 64 :=
  hashFrom initial bs

def digest384 (bs : Bytes) : Octets 48 :=
  (hashFrom initial384 bs).slice 0 48 (by decide)

end SecureBoot.Sha512
