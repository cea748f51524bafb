import SecureBoot.Bytes

/-!
# SHA-256

The hash function of FIPS 180-4, in two forms.

* `Sha256.digest` hashes an octet string in one step; `Sha256.digest224` is the shorter SHA-224.
* `Sha256.Hasher` takes the string in pieces: `Hasher.update` adds a piece, `Hasher.finish` gives
  the digest of everything added so far.

Both rest on `absorb`, which compresses the complete 64-octet blocks at the front of a string into
the chaining value and gives back what is left over.  `absorb_append` says that a string may be
absorbed in two pieces, so that a `Hasher` computes the digest of the concatenation
(`Hasher.finish_update_start`).
-/

namespace SecureBoot

/-- A SHA-256 digest. -/
abbrev Digest := Octets 32

namespace Sha256

/-! ## The compression function -/

/-- The chaining value: eight words, which are also the working variables of a round. -/
structure Chain where
  a : UInt32
  b : UInt32
  c : UInt32
  d : UInt32
  e : UInt32
  f : UInt32
  g : UInt32
  h : UInt32
  deriving DecidableEq, Repr

/-- The chaining value before the first block. -/
def initial : Chain where
  a := 0x6a09e667
  b := 0xbb67ae85
  c := 0x3c6ef372
  d := 0xa54ff53a
  e := 0x510e527f
  f := 0x9b05688c
  g := 0x1f83d9ab
  h := 0x5be0cd19

/-- The chaining value before the first block for SHA-224. -/
def initial224 : Chain where
  a := 0xc1059ed8
  b := 0x367cd507
  c := 0x3070dd17
  d := 0xf70e5939
  e := 0xffc00b31
  f := 0x68581511
  g := 0x64f98fa7
  h := 0xbefa4fa4

def roundConstants : List UInt32 := [
  0x428a2f98, 0x71374491, 0xb5c0fbcf, 0xe9b5dba5, 0x3956c25b, 0x59f111f1, 0x923f82a4, 0xab1c5ed5,
  0xd807aa98, 0x12835b01, 0x243185be, 0x550c7dc3, 0x72be5d74, 0x80deb1fe, 0x9bdc06a7, 0xc19bf174,
  0xe49b69c1, 0xefbe4786, 0x0fc19dc6, 0x240ca1cc, 0x2de92c6f, 0x4a7484aa, 0x5cb0a9dc, 0x76f988da,
  0x983e5152, 0xa831c66d, 0xb00327c8, 0xbf597fc7, 0xc6e00bf3, 0xd5a79147, 0x06ca6351, 0x14292967,
  0x27b70a85, 0x2e1b2138, 0x4d2c6dfc, 0x53380d13, 0x650a7354, 0x766a0abb, 0x81c2c92e, 0x92722c85,
  0xa2bfe8a1, 0xa81a664b, 0xc24b8b70, 0xc76c51a3, 0xd192e819, 0xd6990624, 0xf40e3585, 0x106aa070,
  0x19a4c116, 0x1e376c08, 0x2748774c, 0x34b0bcb5, 0x391c0cb3, 0x4ed8aa4a, 0x5b9cca4f, 0x682e6ff3,
  0x748f82ee, 0x78a5636f, 0x84c87814, 0x8cc70208, 0x90befffa, 0xa4506ceb, 0xbef9a3f7, 0xc67178f2]

/-- A word rotated right by `n` bits, `0 < n < 32`. -/
def rotateRight (x n : UInt32) : UInt32 :=
  (x >>> n) ||| (x <<< (32 - n))

def bigSigma0 (x : UInt32) : UInt32 := rotateRight x 2 ^^^ rotateRight x 13 ^^^ rotateRight x 22

def bigSigma1 (x : UInt32) : UInt32 := rotateRight x 6 ^^^ rotateRight x 11 ^^^ rotateRight x 25

def smallSigma0 (x : UInt32) : UInt32 := rotateRight x 7 ^^^ rotateRight x 18 ^^^ (x >>> 3)

def smallSigma1 (x : UInt32) : UInt32 := rotateRight x 17 ^^^ rotateRight x 19 ^^^ (x >>> 10)

/-- Bit by bit, `y` where `x` is set and `z` elsewhere. -/
def choose (x y z : UInt32) : UInt32 := (x &&& y) ^^^ (~~~x &&& z)

/-- Bit by bit, what at least two of the three words hold. -/
def majority (x y z : UInt32) : UInt32 := (x &&& y) ^^^ (x &&& z) ^^^ (y &&& z)

/-- One round; `kw` is the sum of the round's constant and its schedule word. -/
def round (v : Chain) (kw : UInt32) : Chain :=
  let t1 := v.h + bigSigma1 v.e + choose v.e v.f v.g + kw
  let t2 := bigSigma0 v.a + majority v.a v.b v.c
  { a := t1 + t2, b := v.a, c := v.b, d := v.c, e := v.d + t1, f := v.e, g := v.f, h := v.g }

/-- The schedule word after the given ones, which stand latest first. -/
def nextWord : List UInt32 → UInt32
  | _ :: w14 :: _ :: _ :: _ :: _ :: w9 :: _ :: _ :: _ :: _ :: _ :: _ :: _ :: w1 :: w0 :: _ =>
    smallSigma1 w14 + w9 + smallSigma0 w1 + w0
  | _ => 0

/-- `n` more schedule words in front of the given ones; all stand latest first. -/
def extendSchedule : Nat → List UInt32 → List UInt32
  | 0, words => words
  | n + 1, words => extendSchedule n (nextWord words :: words)

/-- The sixty-four schedule words of a block of sixteen. -/
def schedule (block : List UInt32) : List UInt32 :=
  (extendSchedule 48 block.reverse).reverse

/-- The chaining value after one more block of sixteen words. -/
def compress (v : Chain) (block : List UInt32) : Chain :=
  let w := (List.zipWith (· + ·) roundConstants (schedule block)).foldl round v
  { a := v.a + w.a, b := v.b + w.b, c := v.c + w.c, d := v.d + w.d
    e := v.e + w.e, f := v.f + w.f, g := v.g + w.g, h := v.h + w.h }

/-! ## Blocks of octets -/

/-- Four octets as a word, most significant first. -/
def word (b0 b1 b2 b3 : UInt8) : UInt32 :=
  (b0.toUInt32 <<< 24) ||| (b1.toUInt32 <<< 16) ||| (b2.toUInt32 <<< 8) ||| b3.toUInt32

/-- The first `n` words of a string and what follows them, if there are so many. -/
def takeWords : Nat → Bytes → Option (List UInt32 × Bytes)
  | 0, bs => some ([], bs)
  | n + 1, b0 :: b1 :: b2 :: b3 :: bs =>
    (takeWords n bs).map fun (ws, rest) => (word b0 b1 b2 b3 :: ws, rest)
  | _ + 1, _ => none

/-- Words taken from a string leave that many octets less. -/
theorem length_of_takeWords {n : Nat} {bs rest : Bytes} {ws : List UInt32}
    (h : takeWords n bs = some (ws, rest)) : bs.length = 4 * n + rest.length := by
  fun_induction takeWords n bs generalizing ws rest with
  | case1 bs =>
    simp only [Option.some.injEq, Prod.mk.injEq] at h
    simp [h.2]
  | case2 n b0 b1 b2 b3 bs ih =>
    simp only [Option.map_eq_some_iff, Prod.exists, Prod.mk.injEq] at h
    obtain ⟨ws', rest', hbs, -, rfl⟩ := h
    have := ih hbs
    simp only [List.length_cons]
    omega
  | case3 => simp at h

/-- Words are taken from the front, so more octets at the end stay at the end. -/
theorem takeWords_append {n : Nat} {bs rest : Bytes} {ws : List UInt32}
    (h : takeWords n bs = some (ws, rest)) (more : Bytes) :
    takeWords n (bs ++ more) = some (ws, rest ++ more) := by
  fun_induction takeWords n bs generalizing ws rest with
  | case1 bs =>
    simp only [Option.some.injEq, Prod.mk.injEq] at h
    simp [takeWords, h.1, h.2]
  | case2 n b0 b1 b2 b3 bs ih =>
    simp only [Option.map_eq_some_iff, Prod.exists, Prod.mk.injEq] at h
    obtain ⟨ws', rest', hbs, rfl, rfl⟩ := h
    simp [takeWords, ih hbs]
  | case3 => simp at h

/-- The chaining value after the complete blocks at the front of a string, and the octets left. -/
def absorb (v : Chain) (bs : Bytes) : Chain × Bytes :=
  match _h : takeWords 16 bs with
  | some (block, rest) => absorb (compress v block) rest
  | none => (v, bs)
termination_by bs.length
decreasing_by
  have := length_of_takeWords _h
  omega

theorem absorb_of_takeWords {v : Chain} {bs rest : Bytes} {block : List UInt32}
    (h : takeWords 16 bs = some (block, rest)) :
    absorb v bs = absorb (compress v block) rest := by
  rw [absorb]
  split
  · next block' rest' h' =>
    rw [h] at h'
    cases h'
    rfl
  · next h' => simp [h] at h'

/-- A string may be absorbed in two pieces, the second behind what the first left over. -/
theorem absorb_append (v : Chain) (bs more : Bytes) :
    absorb v (bs ++ more) = absorb (absorb v bs).1 ((absorb v bs).2 ++ more) := by
  fun_induction absorb v bs with
  | case1 v bs block rest h ih =>
    rw [absorb_of_takeWords (takeWords_append h more), ih]
  | case2 v bs h => rfl

/-- What stands behind a message of `len` octets: a one bit, zeros up to eight octets before the
end of a block, and the number of bits. -/
def padding (len : Nat) : Bytes :=
  0x80 :: List.replicate ((119 - len % 64) % 64) 0 ++ bigEndianBytes 8 (8 * len)

def Chain.toDigest (v : Chain) : Digest :=
  ⟨[v.a, v.b, v.c, v.d, v.e, v.f, v.g, v.h].flatMap fun w => bigEndianBytes 4 w.toNat, by
    simp⟩

/-! ## Hashing -/

/-- The SHA-256 digest of an octet string. -/
def digest (bs : Bytes) : Digest :=
  (absorb initial (bs ++ padding bs.length)).1.toDigest

/-- The SHA-224 digest of an octet string: another start, and all but the last four octets. -/
def digest224 (bs : Bytes) : Octets 28 :=
  (absorb initial224 (bs ++ padding bs.length)).1.toDigest.slice 0 28 (by decide)

structure Hasher where
  /-- The chaining value after the complete blocks. -/
  chain : Chain
  /-- The octets after the last complete block. -/
  pending : Bytes
  /-- The number of octets added so far. -/
  count : Nat

namespace Hasher

def start : Hasher := ⟨initial, [], 0⟩

def update (h : Hasher) (bs : Bytes) : Hasher :=
  let (chain, pending) := absorb h.chain (h.pending ++ bs)
  ⟨chain, pending, h.count + bs.length⟩

def finish (h : Hasher) : Digest :=
  (absorb h.chain (h.pending ++ padding h.count)).1.toDigest

/-- Two pieces one after the other are one piece. -/
theorem update_update (h : Hasher) (xs ys : Bytes) :
    (h.update xs).update ys = h.update (xs ++ ys) := by
  simp only [update, ← List.append_assoc, List.length_append, Nat.add_assoc]
  rw [absorb_append h.chain (h.pending ++ xs) ys]

/-- The digest of a string given in one piece is the digest of the string. -/
theorem finish_update_start (bs : Bytes) : (start.update bs).finish = digest bs := by
  simp only [finish, update, start, digest, List.nil_append, Nat.zero_add]
  rw [absorb_append initial bs]

end Hasher

end Sha256

end SecureBoot
