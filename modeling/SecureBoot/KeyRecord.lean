import SecureBoot.Fault
import SecureBoot.Hash.Sha256
import SecureBoot.Montgomery

/-!
# Key records

A `KeyRecord` is an RSA-3072 public key in the form that the signature hardware reads: modulus,
exponent and the two Montgomery constants, all least significant octet first.  It is part of every
signature block, and its hash identifies the key that a chip trusts.

* `KeyRecord.create` makes the record of a key, and `KeyRecord.rsaKey` reads the key back.
* `KeyRecord.toOctets` and `KeyRecord.ofOctets` are the record's 776 octets; each undoes the other.
* `KeyRecord.hash` is fed with the fields one by one; `KeyRecord.hash_eq` says that it is the digest
  of the 776 octets.
-/

namespace SecureBoot

structure KeyRecord where
  /-- The modulus. -/
  n : Octets Layout.keyLength
  /-- The public exponent. -/
  e : Octets 4
  /-- The square of the Montgomery radix. -/
  rr : Octets Layout.keyLength
  /-- The Montgomery word. -/
  m : Octets 4
  deriving DecidableEq, Repr

namespace KeyRecord

/-! ## The numbers of a record -/

def modulus (key : KeyRecord) : Nat := key.n.toNat

def exponent (key : KeyRecord) : Nat := key.e.toNat

def montgomeryRR (key : KeyRecord) : Nat := key.rr.toNat

def montgomeryM (key : KeyRecord) : Nat := key.m.toNat

/-- Refuse a modulus of any other length than 3072 bits. -/
def checkSize (key : Rsa.PublicKey) : Except KeyFault Unit :=
  let bits := bitLength key.modulus
  if bits = Layout.keyBits then .ok () else .error (.size bits)

/-- The record of a key, whose modulus must have 3072 bits, whose exponent must fit into 32 bits,
and whose modulus must be odd. -/
def ofKey (key : Rsa.PublicKey) : Except KeyFault KeyRecord := do
  checkSize key
  if UInt32.size ≤ key.exponent then .error .exponent
  else
    match Montgomery.m key.modulus with
    | none => .error .evenModulus
    | some m => .ok {
        n := Octets.ofNat Layout.keyLength key.modulus
        e := Octets.ofNat 4 key.exponent
        rr := Octets.ofNat Layout.keyLength (Montgomery.rr key.modulus)
        m := Octets.ofNat 4 m.toNat }

/-- The record of a key; a fault is one of the key. -/
def create (key : Rsa.PublicKey) : Checked KeyRecord :=
  (ofKey key).mapError Fault.ofKey

/-- The two numbers of a record as they stand, whether or not they make a usable key. -/
def publicKey (key : KeyRecord) : Rsa.PublicKey :=
  ⟨key.modulus, key.exponent⟩

/-- The key of a record, if it may be used to verify. -/
def rsaKey (key : KeyRecord) : Checked Rsa.PublicKey :=
  match key.publicKey.check with
  | .ok () => .ok key.publicKey
  | .error rejection => .error (Fault.ofKey (.rejected rejection))

/-! ## The octets of a record -/

/-- A record in the order of its fields. -/
def toOctets (key : KeyRecord) : Octets Layout.keyRecordLength :=
  ⟨key.n.toBytes ++ key.e.toBytes ++ key.rr.toBytes ++ key.m.toBytes, by
    simp only [List.length_append, Octets.length_toBytes]
    rfl⟩

/-- The record that 776 octets hold. -/
def ofOctets (area : Octets Layout.keyRecordLength) : KeyRecord where
  n := area.slice 0 384 (by decide)
  e := area.slice 384 4 (by decide)
  rr := area.slice 388 384 (by decide)
  m := area.slice 772 4 (by decide)

/-- The digest that a chip keeps of the key it trusts. -/
def hash (key : KeyRecord) : Digest :=
  ((((Sha256.Hasher.start.update key.n.toBytes).update key.e.toBytes).update
    key.rr.toBytes).update key.m.toBytes).finish

/-- The fields hashed one by one give the digest of the record's octets. -/
theorem hash_eq (key : KeyRecord) : key.hash = Sha256.digest key.toOctets.toBytes := by
  simp only [hash, Sha256.Hasher.update_update, Sha256.Hasher.finish_update_start, toOctets]

end KeyRecord

end SecureBoot
