import SecureBoot.Proofs.Checks
import SecureBoot.Proofs.KeyRecord
import SecureBoot.Proofs.Montgomery
import SecureBoot.Proofs.Rsa

/-!
# KeyCreation — which keys have a record, and what stands in it

`KeyRecord.create` makes three checks (`creationFaults`) and fills in four numbers.  The numbers are
right for every key that passes the checks (`Represents`), and a record determines its key.

`createInBounds?` is creation with every step that is not defined for all numbers written as one
that may have no result: the words of the inversion, the remainder modulo the modulus, and the
fields that a number has to fit into.  `createInBounds?_eq` says that there always is a result.
-/

namespace SecureBoot

/-- A number in `n` octets, least significant first, if it does not need more. -/
def Octets.ofNat? (n x : Nat) : Option (Octets n) :=
  if x < 256 ^ n then some (ofNat n x) else none

theorem Octets.ofNat?_of_lt {n x : Nat} (h : x < 256 ^ n) : ofNat? n x = some (ofNat n x) :=
  if_pos h

namespace KeyRecord

variable {key : Rsa.PublicKey}

/-! ## Checks -/

/-- What the checks of a key find, in their order. -/
def creationFaults (key : Rsa.PublicKey) : List (Option (Fault Empty)) :=
  [faultUnless (bitLength key.modulus = 3072)
      ⟨some .key, .key (.size (bitLength key.modulus))⟩,
    faultUnless (key.exponent < 2 ^ 32) ⟨some .key, .key .exponent⟩,
    faultUnless (key.modulus % 2 = 1) ⟨some .key, .key .evenModulus⟩]

/-- The keys that pass the checks. -/
structure Creatable (key : Rsa.PublicKey) : Prop where
  bitLength_eq : bitLength key.modulus = 3072
  exponent_lt : key.exponent < 2 ^ 32
  modulus_odd : key.modulus % 2 = 1

/-- The numbers of a key and its constants, each in its field. -/
def filled (key : Rsa.PublicKey) (m : UInt32) : KeyRecord where
  n := Octets.ofNat Layout.keyLength key.modulus
  e := Octets.ofNat 4 key.exponent
  rr := Octets.ofNat Layout.keyLength (Montgomery.rr key.modulus)
  m := Octets.ofNat 4 m.toNat

theorem firstFault_creationFaults_eq_none_iff :
    firstFault (creationFaults key) = none ↔ Creatable key := by
  simp only [firstFault_eq_none_iff, creationFaults, List.forall_mem_cons, faultUnless_eq_none_iff]
  constructor
  · rintro ⟨hbits, hexponent, hodd, -⟩
    exact ⟨hbits, hexponent, hodd⟩
  · rintro ⟨hbits, hexponent, hodd⟩
    exact ⟨hbits, hexponent, hodd, by simp⟩

/-- Creation is its checks, and then the record is filled; the word of an even modulus is never
asked for. -/
theorem create_eq_outcome (key : Rsa.PublicKey) :
    create key = outcome (creationFaults key) (filled key ((Montgomery.m key.modulus).getD 0)) := by
  -- One split for each check, in their order; the last is made by the word itself.
  by_cases hbits : bitLength key.modulus = 3072
  · have hsize : checkSize key = .ok () := if_pos hbits
    by_cases hexponent : key.exponent < 2 ^ 32
    · have hshort : ¬UInt32.size ≤ key.exponent := Nat.not_le_of_lt hexponent
      cases hm : Montgomery.m key.modulus with
      | none =>
          have hodd := Montgomery.m_eq_none_iff.1 hm
          simp only [create, ofKey, hsize, hm, if_neg hshort, creationFaults, faultUnless,
            if_pos hbits, if_pos hexponent, if_neg hodd]
          rfl
      | some m =>
          have hodd := Montgomery.odd_of_m hm
          simp only [create, ofKey, hsize, hm, if_neg hshort, creationFaults, faultUnless,
            if_pos hbits, if_pos hexponent, if_pos hodd]
          rfl
    · have hlong : UInt32.size ≤ key.exponent := Nat.le_of_not_lt hexponent
      simp only [create, ofKey, hsize, if_pos hlong, creationFaults, faultUnless, if_pos hbits,
        if_neg hexponent]
      rfl
  · have hsize : checkSize key = .error (.size (bitLength key.modulus)) := if_neg hbits
    simp only [create, ofKey, hsize, creationFaults, faultUnless, if_neg hbits]
    rfl

theorem create_eq_error_iff {fault : Fault Empty} :
    create key = .error fault ↔ firstFault (creationFaults key) = some fault := by
  rw [create_eq_outcome, outcome_eq_error_iff]

theorem create_eq_ok_iff {record : KeyRecord} :
    create key = .ok record ↔
      Creatable key ∧ ∃ m, Montgomery.m key.modulus = some m ∧ record = filled key m := by
  rw [create_eq_outcome, outcome_eq_ok_iff, firstFault_creationFaults_eq_none_iff]
  constructor
  · rintro ⟨hkey, rfl⟩
    rcases Option.isSome_iff_exists.1 (Montgomery.isSome_m hkey.modulus_odd) with ⟨m, hm⟩
    exact ⟨hkey, m, hm, by rw [hm]; rfl⟩
  · rintro ⟨hkey, m, hm, rfl⟩
    exact ⟨hkey, by rw [hm]; rfl⟩

/-- A key that fails a check is at fault itself. -/
theorem fault_of_create {fault : Fault Empty} (h : create key = .error fault) :
    fault.kind = .key ∧ fault.artifact = some .key := by
  have hmem := mem_of_firstFault (create_eq_error_iff.1 h)
  simp only [creationFaults, List.mem_cons, List.not_mem_nil, or_false] at hmem
  rcases hmem with hmem | hmem | hmem
  · rw [eq_of_faultUnless hmem.symm]
    exact ⟨rfl, rfl⟩
  · rw [eq_of_faultUnless hmem.symm]
    exact ⟨rfl, rfl⟩
  · rw [eq_of_faultUnless hmem.symm]
    exact ⟨rfl, rfl⟩

/-! ## Numbers -/

/-- A record holds the numbers of a key and the constants that the hardware needs for it. -/
structure Represents (record : KeyRecord) (key : Rsa.PublicKey) : Prop where
  modulus_eq : record.modulus = key.modulus
  exponent_eq : record.exponent = key.exponent
  montgomeryRR_eq : record.montgomeryRR = 2 ^ 6144 % key.modulus
  montgomeryRR_lt : record.montgomeryRR < key.modulus
  montgomeryM_lt : record.montgomeryM < 2 ^ 32
  mul_montgomeryM : (key.modulus * record.montgomeryM : Int) ≡ -1 [ZMOD 2 ^ 32]
  /-- What a step of a Montgomery reduction adds to a word clears it. -/
  reduces : ∀ t < 2 ^ 32, 2 ^ 32 ∣ t + t * record.montgomeryM % 2 ^ 32 * key.modulus

namespace Creatable

variable (h : Creatable key)

include h

theorem modulus_lt : key.modulus < 256 ^ Layout.keyLength :=
  lt_pow_of_bitLength_le (Nat.le_of_eq h.bitLength_eq)

theorem modulus_pos : 0 < key.modulus := by
  have hodd := h.modulus_odd
  omega

theorem rr_lt : Montgomery.rr key.modulus < 256 ^ Layout.keyLength :=
  Nat.lt_trans (Montgomery.rr_lt h.modulus_pos) h.modulus_lt

/-- All numbers fit into their fields, so the record keeps all their digits. -/
theorem represents_filled {m : UInt32} (hm : Montgomery.m key.modulus = some m) :
    (filled key m).Represents key := by
  have hword : (filled key m).montgomeryM = m.toNat := by
    rw [montgomeryM, filled, Octets.toNat_ofNat, Nat.mod_eq_of_lt]
    exact m.toNat_lt
  have hrr : (filled key m).montgomeryRR = Montgomery.rr key.modulus := by
    rw [montgomeryRR, filled, Octets.toNat_ofNat, Nat.mod_eq_of_lt h.rr_lt]
  refine ⟨?_, ?_, ?_, ?_, ?_, ?_, ?_⟩
  · rw [modulus, filled, Octets.toNat_ofNat, Nat.mod_eq_of_lt h.modulus_lt]
  · rw [exponent, filled, Octets.toNat_ofNat, Nat.mod_eq_of_lt]
    exact h.exponent_lt
  · rw [hrr, Montgomery.rr_eq, h.bitLength_eq]
  · rw [hrr]
    exact Montgomery.rr_lt h.modulus_pos
  · rw [hword]
    exact m.toNat_lt
  · rw [hword]
    exact Montgomery.mul_m hm
  · intro t _
    rw [hword]
    exact Montgomery.dvd_reduce (Montgomery.mul_m hm) t

end Creatable

theorem represents_of_create {record : KeyRecord} (h : create key = .ok record) :
    record.Represents key := by
  rcases create_eq_ok_iff.1 h with ⟨hkey, m, hm, rfl⟩
  exact hkey.represents_filled hm

theorem exists_create_iff : (∃ record, create key = .ok record) ↔ Creatable key := by
  constructor
  · rintro ⟨record, h⟩
    exact (create_eq_ok_iff.1 h).1
  · intro h
    rcases Option.isSome_iff_exists.1 (Montgomery.isSome_m h.modulus_odd) with ⟨m, hm⟩
    exact ⟨filled key m, create_eq_ok_iff.2 ⟨h, m, hm, rfl⟩⟩

/-- The record of a key gives the key back. -/
theorem exists_create (h : Creatable key) :
    ∃ record, create key = .ok record ∧ record.publicKey = key := by
  rcases exists_create_iff.2 h with ⟨record, hrecord⟩
  have hrepresents := represents_of_create hrecord
  refine ⟨record, hrecord, ?_⟩
  rw [publicKey, hrepresents.modulus_eq, hrepresents.exponent_eq]

/-- A record holds one key only. -/
theorem create_eq_create_iff {other : Rsa.PublicKey} {record record' : KeyRecord}
    (h : create key = .ok record) (h' : create other = .ok record') :
    record = record' ↔ key.modulus = other.modulus ∧ key.exponent = other.exponent := by
  constructor
  · rintro rfl
    have hkey := represents_of_create h
    have hother := represents_of_create h'
    exact ⟨hkey.modulus_eq.symm.trans hother.modulus_eq,
      hkey.exponent_eq.symm.trans hother.exponent_eq⟩
  · rintro ⟨hmodulus, hexponent⟩
    have hsame : key = other := by
      rcases key with ⟨n, e⟩
      rw [Rsa.PublicKey.mk.injEq]
      exact ⟨hmodulus, hexponent⟩
    rw [hsame, h', Except.ok.injEq] at h
    exact h.symm

/-! ## Bounds -/

/-- The record of a key that passes the checks, if every number fits where it is needed. -/
def filledInBounds? (key : Rsa.PublicKey) (m : UInt32) : Option KeyRecord := do
  let rr ← Montgomery.rr? key.modulus
  let n ← Octets.ofNat? Layout.keyLength key.modulus
  let rr ← Octets.ofNat? Layout.keyLength rr
  return ⟨n, Octets.ofNat 4 key.exponent, rr, Octets.ofNat 4 m.toNat⟩

/-- Creation that has no result where a number gets too large for what holds it, or the modulus is
zero when a remainder is taken. -/
def createInBounds? (key : Rsa.PublicKey) : Option (Checked KeyRecord) :=
  match checkSize key with
  | .error fault => some (.error (Fault.ofKey fault))
  | .ok () =>
    if UInt32.size ≤ key.exponent then some (.error (Fault.ofKey .exponent))
    else do
      match ← Montgomery.mInWords? key.modulus with
      | none => return .error (Fault.ofKey .evenModulus)
      | some m => return .ok (← filledInBounds? key m)

theorem Creatable.filledInBounds?_eq (h : Creatable key) (m : UInt32) :
    filledInBounds? key m = some (filled key m) := by
  have hrr : Montgomery.rr? key.modulus = some (Montgomery.rr key.modulus) :=
    if_neg h.modulus_pos.ne'
  simp only [filledInBounds?, hrr, Octets.ofNat?_of_lt h.modulus_lt, Octets.ofNat?_of_lt h.rr_lt,
    Option.bind_eq_bind, Option.bind_some]
  rfl

/-- Nothing gets out of bounds: the size of the modulus is checked before it is copied, and an odd
number is not zero. -/
theorem createInBounds?_eq (key : Rsa.PublicKey) : createInBounds? key = some (create key) := by
  -- The refusals compute nothing but the word; only behind all checks are there fields to fill.
  by_cases hbits : bitLength key.modulus = 3072
  · have hsize : checkSize key = .ok () := if_pos hbits
    by_cases hlong : UInt32.size ≤ key.exponent
    · simp only [createInBounds?, create, ofKey, hsize, if_pos hlong]
      rfl
    · cases hm : Montgomery.m key.modulus with
      | none =>
          simp only [createInBounds?, create, ofKey, hsize, if_neg hlong,
            Montgomery.mInWords?_eq, hm]
          rfl
      | some m =>
          have hkey : Creatable key := ⟨hbits, Nat.lt_of_not_le hlong, Montgomery.odd_of_m hm⟩
          have hcreate : create key = .ok (filled key m) := create_eq_ok_iff.2 ⟨hkey, m, hm, rfl⟩
          simp only [createInBounds?, hsize, if_neg hlong, Montgomery.mInWords?_eq, hm,
            hkey.filledInBounds?_eq, hcreate]
          rfl
  · have hsize : checkSize key = .error (.size (bitLength key.modulus)) := if_neg hbits
    simp only [createInBounds?, create, ofKey, hsize]
    rfl

/-! ## Decision -/

/-- Creation has a result for every pair of numbers: the record of the key if it passes all checks,
and otherwise the first fault, which is one of the key.  A record represents its key, and records
are equal only if they are of one key. -/
theorem create_decides (key : Rsa.PublicKey) :
    createInBounds? key = some (create key) ∧
    ((∃ record, create key = .ok record) ↔
      bitLength key.modulus = 3072 ∧ key.exponent < 2 ^ 32 ∧ key.modulus % 2 = 1) ∧
    (∀ fault, create key = .error fault ↔ firstFault (creationFaults key) = some fault) ∧
    (∀ fault, create key = .error fault → fault.kind = .key ∧ fault.artifact = some .key) ∧
    (∀ record, create key = .ok record → record.Represents key) ∧
    ∀ other record record', create key = .ok record → create other = .ok record' →
      (record = record' ↔ key.modulus = other.modulus ∧ key.exponent = other.exponent) := by
  refine ⟨createInBounds?_eq key, ?_, ?_, ?_, ?_, ?_⟩
  · rw [exists_create_iff]
    exact ⟨fun h => ⟨h.bitLength_eq, h.exponent_lt, h.modulus_odd⟩, fun h => ⟨h.1, h.2.1, h.2.2⟩⟩
  · intro fault
    exact create_eq_error_iff
  · intro fault h
    exact fault_of_create h
  · intro record h
    exact represents_of_create h
  · intro other record record' h h'
    exact create_eq_create_iff h h'

/-- The sample key and the key with its modulus and another exponent have different records, and
numbers that fail all checks but that of the parity are refused because of the size. -/
theorem create_decides_sampleKey :
    ∃ record record',
      create Rsa.sampleKey.toPublicKey = .ok record ∧
      create ⟨Rsa.sampleKey.modulus, 3⟩ = .ok record' ∧
      record.montgomeryRR = 2 ^ 6144 % Rsa.sampleKey.modulus ∧
      record ≠ record' ∧
      create ⟨1, 2 ^ 32⟩ = .error ⟨some .key, .key (.size 1)⟩ ∧
      (⟨some .key, .key (.size 1)⟩ : Fault Empty).kind = .key := by
  have hbits : bitLength Rsa.sampleKey.modulus = 3072 := Rsa.usable_sampleKey.bitLength_eq
  have hodd : Rsa.sampleKey.modulus % 2 = 1 := Rsa.usable_sampleKey.modulus_odd
  rcases create_decides Rsa.sampleKey.toPublicKey with ⟨-, hsample, -, -, hrecord, hequal⟩
  rcases hsample.2 ⟨hbits, Rsa.usable_sampleKey.exponent_lt, hodd⟩ with ⟨record, h⟩
  have hthree (n : Nat) (hbits : bitLength n = 3072) (hodd : n % 2 = 1) :
      ∃ record, create ⟨n, 3⟩ = .ok record :=
    (create_decides ⟨n, 3⟩).2.1.2 ⟨hbits, show 3 < 2 ^ 32 by decide, hodd⟩
  rcases hthree _ hbits hodd with ⟨record', h'⟩
  rcases create_decides ⟨1, 2 ^ 32⟩ with ⟨-, -, hfirst, hfault, -, -⟩
  have hsize : create ⟨1, 2 ^ 32⟩ = .error ⟨some .key, .key (.size 1)⟩ := (hfirst _).2 (by decide)
  refine ⟨record, record', h, h', (hrecord record h).montgomeryRR_eq, ?_, hsize,
    (hfault _ hsize).1⟩
  intro hsame
  have hexponent : 65537 = 3 := ((hequal _ record record' h h').1 hsame).2
  exact absurd hexponent (by decide)

end KeyRecord

end SecureBoot
