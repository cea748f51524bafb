import SecureBoot.Hash.Pbkdf2

/-!
# scrypt

The key derivation of RFC 7914, `Scrypt.deriveKey`.  It fills a large table with strings, each mixed
from the one before it, and then mixes them once more in an order that only the strings tell.

A string is a list of blocks of sixteen words.  The mixing function of a block is Salsa20/8.
-/

namespace SecureBoot.Scrypt

/-! ## Blocks -/

/-- Sixteen words of 32 bits. -/
abbrev Block := Vector UInt32 16

/-- A word rotated left by `n` bits, `0 < n < 32`. -/
def rotateLeft (x n : UInt32) : UInt32 :=
  (x <<< n) ||| (x >>> (32 - n))

/-- Four words of a block mixed. -/
def mixWords (v : Block) (a b c d : Fin 16) : Block :=
  let v := v.set b (v[b] ^^^ rotateLeft (v[a] + v[d]) 7)
  let v := v.set c (v[c] ^^^ rotateLeft (v[b] + v[a]) 9)
  let v := v.set d (v[d] ^^^ rotateLeft (v[c] + v[b]) 13)
  v.set a (v[a] ^^^ rotateLeft (v[d] + v[c]) 18)

/-- The columns of the square of sixteen words mixed, each from its diagonal word on. -/
def mixColumns (v : Block) : Block :=
  mixWords (mixWords (mixWords (mixWords v 0 4 8 12) 5 9 13 1) 10 14 2 6) 15 3 7 11

/-- The rows of the square of sixteen words mixed, each from its diagonal word on. -/
def mixRows (v : Block) : Block :=
  mixWords (mixWords (mixWords (mixWords v 0 1 2 3) 5 6 7 4) 10 11 8 9) 15 12 13 14

/-- Salsa20/8: eight rounds, and the block added to what they make of it. -/
def salsa (v : Block) : Block :=
  Vector.zipWith (· + ·) (Nat.repeat (fun v => mixRows (mixColumns v)) 4 v) v

def combine (v w : Block) : Block :=
  Vector.zipWith (· ^^^ ·) v w

/-- Sixteen words from 64 octets, least significant first. -/
def Block.ofBytes (bs : Bytes) : Block :=
  Vector.ofFn fun i => UInt32.ofNat (littleEndian ((bs.drop (4 * i.val)).take 4))

def Block.toBytes (v : Block) : Bytes :=
  v.toList.flatMap fun w => littleEndianBytes 4 w.toNat

/-! ## Strings of blocks -/

/-- Each block combined with the one mixed before it, and mixed. -/
def chain (last : Block) : List Block → List Block
  | [] => []
  | v :: more =>
    let mixed := salsa (combine last v)
    mixed :: chain mixed more

/-- The members at even positions, and those at odd positions. -/
def alternate {α : Type} : List α → List α × List α
  | [] => ([], [])
  | a :: more => ((a :: (alternate more).2), (alternate more).1)

/-- The last block of a string; zeros if there is none. -/
def lastBlock (blocks : List Block) : Block :=
  blocks.getLastD (Vector.replicate 16 0)

/-- All blocks of a string mixed, the ones at even positions in front. -/
def mixBlocks (blocks : List Block) : List Block :=
  let (even, odd) := alternate (chain (lastBlock blocks) blocks)
  even ++ odd

/-- The number that the last block of a string is, as far as it matters. -/
def number (blocks : List Block) : Nat :=
  let v := lastBlock blocks
  v[0].toNat + UInt32.size * v[1].toNat

/-- The table of `n` strings, each mixed from the one before it, and the string after the last. -/
def fill : Nat → Array (List Block) → List Block → Array (List Block) × List Block
  | 0, table, blocks => (table, blocks)
  | n + 1, table, blocks => fill n (table.push blocks) (mixBlocks blocks)

/-- `n` more mixings, each with the string of the table that the last block points to. -/
def walk (table : Array (List Block)) : Nat → List Block → List Block
  | 0, blocks => blocks
  | n + 1, blocks =>
    let other := table.getD (number blocks % table.size) []
    walk table n (mixBlocks (List.zipWith combine blocks other))

/-- The mixing of a string with a table of `cost` strings. -/
def mix (cost : Nat) (blocks : List Block) : List Block :=
  let (table, blocks) := fill cost #[] blocks
  walk table cost blocks

/-- `n` blocks from a string of octets. -/
def takeBlocks : Nat → Bytes → List Block
  | 0, _ => []
  | n + 1, bs => Block.ofBytes (bs.take 64) :: takeBlocks n (bs.drop 64)

/-! ## Keys -/

structure Parameters where
  /-- The number of strings in the table. -/
  cost : Nat
  /-- Half the number of blocks of a string. -/
  blockSize : Nat
  /-- The number of strings that are mixed independently. -/
  parallelization : Nat
  deriving DecidableEq, Repr

/-- Whether the numbers are in range: the cost is a power of two, and the sizes fit. -/
def Parameters.isValid (parameters : Parameters) : Bool :=
  let ⟨cost, blockSize, parallelization⟩ := parameters
  decide (0 < cost ∧ 1 <<< cost.log2 = cost ∧ cost.log2 < 16 * blockSize ∧
    128 * blockSize * cost < UInt64.size ∧ 0 < parallelization ∧
    blockSize * parallelization < 1 <<< 30)

/-- The strings of `length` octets that a string consists of, `n` of them, each mixed. -/
def mixAll (parameters : Parameters) : Nat → Bytes → Bytes
  | 0, _ => []
  | n + 1, bs =>
    let length := 128 * parameters.blockSize
    let blocks := takeBlocks (2 * parameters.blockSize) (bs.take length)
    (mix parameters.cost blocks).flatMap Block.toBytes ++ mixAll parameters n (bs.drop length)

/-- The key of a given length derived from a password. -/
def deriveKey (parameters : Parameters) (password salt : Bytes) (length : Nat) : Octets length :=
  let ⟨_, blockSize, parallelization⟩ := parameters
  let strings := Pbkdf2.deriveKey .sha256 password salt 1 (128 * blockSize * parallelization)
  let mixed := mixAll parameters parallelization strings.toBytes
  Pbkdf2.deriveKey .sha256 password mixed 1 length

end SecureBoot.Scrypt
