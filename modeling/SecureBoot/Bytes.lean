/-!
# Bytes — octet strings, fixed lengths and byte order

* `Bytes` is a string of octets, `Octets n` one of exactly `n` octets.
* `littleEndian` and `bigEndian` read a string as a natural number; `littleEndianBytes` and
  `bigEndianBytes` write one into a given number of octets, dropping what does not fit.
* `xorBytes` combines two strings octet by octet.
-/

namespace SecureBoot

abbrev Bytes := List UInt8

/-! ## Numbers -/

/-- The number whose base-256 digits are the octets, least significant first. -/
def littleEndian : Bytes → Nat
  | [] => 0
  | b :: bs => b.toNat + 256 * littleEndian bs

/-- The number whose base-256 digits are the octets, most significant first. -/
def bigEndian (bs : Bytes) : Nat :=
  littleEndian bs.reverse

/-- The `len` least significant base-256 digits of a number, least significant first. -/
def littleEndianBytes : Nat → Nat → Bytes
  | 0, _ => []
  | len + 1, n => UInt8.ofNat n :: littleEndianBytes len (n / 256)

/-- The `len` least significant base-256 digits of a number, most significant first. -/
def bigEndianBytes (len n : Nat) : Bytes :=
  (littleEndianBytes len n).reverse

@[simp] theorem length_littleEndianBytes (len n : Nat) :
    (littleEndianBytes len n).length = len := by
  induction len generalizing n with
  | zero => rfl
  | succ len ih => simp [littleEndianBytes, ih]

@[simp] theorem length_bigEndianBytes (len n : Nat) : (bigEndianBytes len n).length = len := by
  simp [bigEndianBytes]

/-- Writing back what was read gives the same octets. -/
theorem littleEndianBytes_littleEndian (bs : Bytes) :
    littleEndianBytes bs.length (littleEndian bs) = bs := by
  induction bs with
  | nil => rfl
  | cons b bs ih =>
    have hb : b.toNat < 256 := b.toNat_lt
    have hq : (b.toNat + 256 * littleEndian bs) / 256 = littleEndian bs := by omega
    have hr : UInt8.ofNat (b.toNat + 256 * littleEndian bs) = b := by
      apply UInt8.toNat_inj.1
      simp
    simp only [List.length_cons, littleEndian, littleEndianBytes, hq, hr, ih]

/-! ## Octet strings combined -/

/-- Exclusive or, octet by octet; as long as the shorter of the two. -/
def xorBytes (xs ys : Bytes) : Bytes :=
  List.zipWith (· ^^^ ·) xs ys

@[simp] theorem length_xorBytes (xs ys : Bytes) :
    (xorBytes xs ys).length = min xs.length ys.length := by
  simp [xorBytes]

theorem xorBytes_comm (xs ys : Bytes) : xorBytes xs ys = xorBytes ys xs :=
  List.zipWith_comm_of_comm UInt8.xor_comm

/-- A string combined twice with one that is not shorter is the string. -/
theorem xorBytes_cancel {xs ys : Bytes} (h : xs.length ≤ ys.length) :
    xorBytes (xorBytes xs ys) ys = xs := by
  induction xs generalizing ys with
  | nil => rfl
  | cons x xs ih =>
      cases ys with
      | nil => simp at h
      | cons y ys =>
          have htail : xorBytes (xorBytes xs ys) ys = xs := ih (Nat.le_of_succ_le_succ h)
          have hhead : x ^^^ y ^^^ y = x := by
            rw [UInt8.xor_assoc, UInt8.xor_self, UInt8.xor_zero]
          calc
            xorBytes (xorBytes (x :: xs) (y :: ys)) (y :: ys)
                = (x ^^^ y ^^^ y) :: xorBytes (xorBytes xs ys) ys := rfl
            _ = x :: xs := by rw [hhead, htail]

/-! ## Fixed lengths -/

/-- A string of exactly `n` octets. -/
structure Octets (n : Nat) where
  toBytes : Bytes
  length_toBytes : toBytes.length = n
  deriving DecidableEq, Repr

namespace Octets

attribute [simp] Octets.length_toBytes

@[ext] theorem ext {n : Nat} {a b : Octets n} (h : a.toBytes = b.toBytes) : a = b := by
  cases a
  cases b
  cases h
  rfl

/-- The octets of a string that has the right length. -/
def ofBytes? (n : Nat) (bs : Bytes) : Option (Octets n) :=
  if h : bs.length = n then some ⟨bs, h⟩ else none

/-- One octet repeated. -/
def fill (n : Nat) (b : UInt8) : Octets n :=
  ⟨List.replicate n b, List.length_replicate⟩

/-- The octets in opposite order. -/
def reverse {n : Nat} (o : Octets n) : Octets n :=
  ⟨o.toBytes.reverse, by simp⟩

@[simp] theorem reverse_reverse {n : Nat} (o : Octets n) : o.reverse.reverse = o := by
  ext1
  simp [reverse]

/-- The `len` octets from position `start` on. -/
def slice {n : Nat} (o : Octets n) (start len : Nat) (h : start + len ≤ n) : Octets len :=
  ⟨(o.toBytes.drop start).take len, by simp; omega⟩

def get {n : Nat} (o : Octets n) (i : Nat) (h : i < n) : UInt8 :=
  o.toBytes.get ⟨i, by simpa using h⟩

/-- The number that the octets are, least significant first. -/
def toNat {n : Nat} (o : Octets n) : Nat :=
  littleEndian o.toBytes

/-- A number in `n` octets, least significant first. -/
def ofNat (n x : Nat) : Octets n :=
  ⟨littleEndianBytes n x, length_littleEndianBytes n x⟩

/-- The number that the octets are, most significant first. -/
def toNatBig {n : Nat} (o : Octets n) : Nat :=
  bigEndian o.toBytes

/-- A number in `n` octets, most significant first. -/
def ofNatBig (n x : Nat) : Octets n :=
  ⟨bigEndianBytes n x, length_bigEndianBytes n x⟩

theorem ofNat_toNat {n : Nat} (o : Octets n) : ofNat n o.toNat = o := by
  ext1
  have h := littleEndianBytes_littleEndian o.toBytes
  rwa [o.length_toBytes] at h

theorem toNatBig_reverse {n : Nat} (o : Octets n) : o.reverse.toNatBig = o.toNat := by
  simp [toNatBig, bigEndian, reverse, toNat]

end Octets

end SecureBoot
