import SecureBoot.Proofs.BlockFormat
import SecureBoot.Proofs.KeyCreation

/-!
# KeyReconstruction — which records give a key back, and which are the record of their key

A record read from a block may hold anything.  `KeyRecord.rsaKey` makes three checks on the two
numbers of the key (`reconstructionFaults`), since the length of the fields takes care of the
others, and looks at nothing else in the record.

`KeyRecord.create` admits other keys: it asks for 3072 bits, and takes any public exponent.  Where
both conversions succeed, the record comes back if its two constants are those of the modulus
(`create_publicKey_eq_ok_iff`); the Montgomery word is determined by the congruence that it
satisfies (`Montgomery.word_unique`).
-/

namespace SecureBoot

theorem Octets.toNat_injective (n : Nat) : Function.Injective (toNat : Octets n → Nat) := by
  intro a b h
  rw [← ofNat_toNat a, ← ofNat_toNat b, h]

namespace KeyRecord

variable {record : KeyRecord}

/-! ## Reconstruction -/

/-- A key that a record can give back: both numbers are odd, and the exponent is between three and
the modulus. -/
structure Reconstructible (key : Rsa.PublicKey) : Prop where
  modulus_odd : key.modulus % 2 = 1
  exponent_odd : key.exponent % 2 = 1
  three_le : 3 ≤ key.exponent
  exponent_lt : key.exponent < key.modulus

/-- What the checks of the key in a record find, in their order. -/
def reconstructionFaults (key : Rsa.PublicKey) : List (Option (Fault Empty)) :=
  [faultUnless (key.exponent < key.modulus ∧ key.modulus % 2 = 1)
      ⟨some .key, .key (.rejected .invalidModulus)⟩,
    faultUnless (key.exponent % 2 = 1) ⟨some .key, .key (.rejected .invalidExponent)⟩,
    faultUnless (3 ≤ key.exponent) ⟨some .key, .key (.rejected .exponentTooSmall)⟩]

theorem firstFault_reconstructionFaults_eq_none_iff {key : Rsa.PublicKey} :
    firstFault (reconstructionFaults key) = none ↔ Reconstructible key := by
  simp only [firstFault_eq_none_iff, reconstructionFaults, List.forall_mem_cons,
    faultUnless_eq_none_iff]
  constructor
  · rintro ⟨⟨hlt, hmodulus⟩, hexponent, hthree, -⟩
    exact ⟨hmodulus, hexponent, hthree, hlt⟩
  · intro h
    exact ⟨⟨h.exponent_lt, h.modulus_odd⟩, h.exponent_odd, h.three_le, by simp⟩

theorem bitLength_modulus_le (record : KeyRecord) : bitLength record.modulus ≤ 3072 :=
  bitLength_le_of_lt_pow record.n.toNat_lt

theorem exponent_lt (record : KeyRecord) : record.exponent < 2 ^ 32 :=
  record.e.toNat_lt

theorem montgomeryM_lt (record : KeyRecord) : record.montgomeryM < 2 ^ 32 :=
  record.m.toNat_lt

/-- The fields are too short for a modulus or an exponent that would be too large. -/
theorem rsaKey_eq_outcome (record : KeyRecord) :
    record.rsaKey = outcome (reconstructionFaults record.publicKey) record.publicKey := by
  have hbits : ¬Rsa.PublicKey.maxModulusBits < bitLength record.publicKey.modulus :=
    Nat.not_lt_of_le (Nat.le_trans record.bitLength_modulus_le (by decide))
  have hlong : ¬1 <<< Rsa.PublicKey.maxExponentBits ≤ record.publicKey.exponent :=
    Nat.not_le_of_lt (Nat.lt_trans record.exponent_lt (by decide))
  unfold rsaKey Rsa.PublicKey.check
  generalize record.publicKey = key at hbits hlong
  rw [if_neg hbits]
  by_cases hmodulus : key.exponent < key.modulus ∧ key.modulus % 2 = 1
  · have hvalid : ¬(key.modulus ≤ key.exponent ∨ key.modulus % 2 = 0) := by omega
    by_cases hexponent : key.exponent % 2 = 1
    · have hodd : ¬key.exponent % 2 = 0 := by omega
      by_cases hthree : 3 ≤ key.exponent
      · have htwo : ¬key.exponent < 2 := by omega
        simp only [if_neg hvalid, if_neg hodd, if_neg htwo, if_neg hlong, reconstructionFaults,
          faultUnless, if_pos hmodulus, if_pos hexponent, if_pos hthree]
        rfl
      · -- The only odd number below three is one.
        have htwo : key.exponent < 2 := by omega
        simp only [if_neg hvalid, if_neg hodd, if_pos htwo, reconstructionFaults, faultUnless,
          if_pos hmodulus, if_pos hexponent, if_neg hthree]
        rfl
    · have heven : key.exponent % 2 = 0 := by omega
      simp only [if_neg hvalid, if_pos heven, reconstructionFaults, faultUnless, if_pos hmodulus,
        if_neg hexponent]
      rfl
  · have hinvalid : key.modulus ≤ key.exponent ∨ key.modulus % 2 = 0 := by omega
    simp only [if_pos hinvalid, reconstructionFaults, faultUnless, if_neg hmodulus]
    rfl

theorem rsaKey_eq_ok_iff {key : Rsa.PublicKey} :
    record.rsaKey = .ok key ↔ Reconstructible record.publicKey ∧ key = record.publicKey := by
  rw [rsaKey_eq_outcome, outcome_eq_ok_iff, firstFault_reconstructionFaults_eq_none_iff]
  constructor
  · rintro ⟨hkey, hsame⟩
    exact ⟨hkey, hsame.symm⟩
  · rintro ⟨hkey, hsame⟩
    exact ⟨hkey, hsame.symm⟩

/-! ## Round trips -/

/-- The constants in a record are those of its modulus. -/
structure Derived (record : KeyRecord) : Prop where
  montgomeryRR_eq : record.montgomeryRR = 2 ^ 6144 % record.modulus
  mul_montgomeryM : (record.modulus * record.montgomeryM : Int) ≡ -1 [ZMOD 2 ^ 32]

theorem eq_of_numbers {other : KeyRecord} (hmodulus : record.modulus = other.modulus)
    (hexponent : record.exponent = other.exponent)
    (hrr : record.montgomeryRR = other.montgomeryRR)
    (hm : record.montgomeryM = other.montgomeryM) : record = other := by
  rcases record with ⟨n, e, rr, m⟩
  rcases other with ⟨n', e', rr', m'⟩
  rw [mk.injEq]
  exact ⟨Octets.toNat_injective _ hmodulus, Octets.toNat_injective _ hexponent,
    Octets.toNat_injective _ hrr, Octets.toNat_injective _ hm⟩

/-- A record that represents its own key is the only one that does. -/
theorem eq_of_represents {other : KeyRecord} (h : other.Represents record.publicKey)
    (hderived : Derived record) : other = record := by
  refine eq_of_numbers h.modulus_eq h.exponent_eq ?_ ?_
  · exact h.montgomeryRR_eq.trans hderived.montgomeryRR_eq.symm
  · exact Montgomery.word_unique h.montgomeryM_lt record.montgomeryM_lt h.mul_montgomeryM
      hderived.mul_montgomeryM

/-- Creation gives a record back if the constants in it are right; every exponent in a record fits
into one. -/
theorem create_publicKey_eq_ok_iff :
    create record.publicKey = .ok record ↔
      bitLength record.modulus = 3072 ∧ record.modulus % 2 = 1 ∧ Derived record := by
  constructor
  · intro h
    have hcreatable := exists_create_iff.1 ⟨record, h⟩
    have hrepresents := represents_of_create h
    exact ⟨hcreatable.bitLength_eq, hcreatable.modulus_odd, hrepresents.montgomeryRR_eq,
      hrepresents.mul_montgomeryM⟩
  · rintro ⟨hbits, hodd, hderived⟩
    rcases exists_create_iff.2 (⟨hbits, record.exponent_lt, hodd⟩ : Creatable record.publicKey) with
      ⟨created, hcreated⟩
    have hsame : created = record := eq_of_represents (represents_of_create hcreated) hderived
    rwa [hsame] at hcreated

/-- A key with a record has more bits than its exponent, so only the exponent can keep it from
coming back. -/
theorem rsaKey_of_create {key : Rsa.PublicKey} (h : create key = .ok record) :
    record.rsaKey = .ok key ↔ key.exponent % 2 = 1 ∧ 3 ≤ key.exponent := by
  have hcreatable := exists_create_iff.1 ⟨record, h⟩
  have hpublic : record.publicKey = key := by
    rcases exists_create hcreatable with ⟨created, hcreated, hkey⟩
    rw [h] at hcreated
    cases hcreated
    exact hkey
  have hlarge : 2 ^ 32 ≤ key.modulus :=
    two_pow_le_of_lt_bitLength (hcreatable.bitLength_eq ▸ by decide)
  rw [rsaKey_eq_ok_iff, hpublic]
  constructor
  · rintro ⟨hkey, -⟩
    exact ⟨hkey.exponent_odd, hkey.three_le⟩
  · rintro ⟨hodd, hthree⟩
    exact ⟨⟨hcreatable.modulus_odd, hodd, hthree,
      Nat.lt_of_lt_of_le hcreatable.exponent_lt hlarge⟩, rfl⟩

/-! ## Key areas -/

/-- The numbers of a record stand at these offsets of its octets. -/
structure NumbersAt (area : Bytes) (record : KeyRecord) : Prop where
  modulus : record.modulus = littleEndian (segment area 0 384)
  exponent : record.exponent = littleEndian (segment area 384 4)
  montgomeryRR : record.montgomeryRR = littleEndian (segment area 388 384)
  montgomeryM : record.montgomeryM = littleEndian (segment area 772 4)

theorem numbersAt_ofOctets (area : Octets Layout.keyRecordLength) :
    NumbersAt area.toBytes (ofOctets area) :=
  ⟨rfl, rfl, rfl, rfl⟩

end KeyRecord

/-- The key record of a block stands in the block as it is. -/
theorem SignatureBlock.key_of_parse {data : Bytes} {block : SignatureBlock}
    (h : parse data = .ok block) : block.key.toOctets.toBytes = segment data 36 776 := by
  have hkey : block.key = KeyRecord.ofOctets (block.toOctets.slice 36 776 (by decide)) :=
    congrArg SignatureBlock.key (ofOctets_toOctets block).symm
  rw [← parse_eq_ok_iff.1 h, hkey, KeyRecord.toOctets_ofOctets]
  rfl

namespace KeyRecord

/-- A record gives its key back if the two numbers are those of a key, whatever its constants are,
and is rejected as a key otherwise.  The record of the key that comes back is the same one if the
modulus has 3072 bits and the constants are its own.  A key comes back from the record that is made
of it unless its exponent is even or one. -/
theorem reconstruction_decides (area : Octets Layout.keyRecordLength) :
    let record := ofOctets area
    NumbersAt area.toBytes record ∧
    (∀ data block, SignatureBlock.parse data = .ok block → segment data 36 776 = area.toBytes →
      block.key = record) ∧
    (∀ key, record.rsaKey = .ok key ↔
      Reconstructible ⟨record.modulus, record.exponent⟩ ∧
        key = ⟨record.modulus, record.exponent⟩) ∧
    (∀ fault, record.rsaKey = .error fault →
      ∃ rejection, fault = ⟨some .key, .key (.rejected rejection)⟩) ∧
    ((∃ key created, record.rsaKey = .ok key ∧ create key = .ok created ∧
        created.toOctets = area) ↔
      Reconstructible ⟨record.modulus, record.exponent⟩ ∧ bitLength record.modulus = 3072 ∧
        Derived record) ∧
    ∀ key created, create key = .ok created →
      (created.rsaKey = .ok key ↔ key.exponent % 2 = 1 ∧ 3 ≤ key.exponent) := by
  intro record
  have harea : record.toOctets = area := toOctets_ofOctets area
  refine ⟨numbersAt_ofOctets area, ?_, ?_, ?_, ?_, ?_⟩
  · intro data block hparse hsegment
    apply toOctets_injective
    rw [harea]
    exact Octets.ext ((SignatureBlock.key_of_parse hparse).trans hsegment)
  · intro key
    exact rsaKey_eq_ok_iff
  · intro fault h
    exact fault_of_rsaKey h
  · constructor
    · rintro ⟨key, created, hkey, hcreated, hsame⟩
      rcases rsaKey_eq_ok_iff.1 hkey with ⟨hreconstructible, rfl⟩
      have hrecord : created = record := toOctets_injective (hsame.trans harea.symm)
      rw [hrecord] at hcreated
      rcases create_publicKey_eq_ok_iff.1 hcreated with ⟨hbits, -, hderived⟩
      exact ⟨hreconstructible, hbits, hderived⟩
    · rintro ⟨hreconstructible, hbits, hderived⟩
      exact ⟨record.publicKey, record, rsaKey_eq_ok_iff.2 ⟨hreconstructible, rfl⟩,
        create_publicKey_eq_ok_iff.2 ⟨hbits, hreconstructible.modulus_odd, hderived⟩, harea⟩
  · intro key created h
    exact rsaKey_of_create h

/-- The record of the sample key gives it back.  With the exponent one the same modulus has a
record, from which no key comes back; a modulus of three bits comes back from a record that creation
does not make; and no block of zeros holds a key. -/
theorem reconstruction_decides_samples :
    ∃ record one small : KeyRecord,
      create Rsa.sampleKey.toPublicKey = .ok record ∧
      record.rsaKey = .ok Rsa.sampleKey.toPublicKey ∧
      create ⟨Rsa.sampleKey.modulus, 1⟩ = .ok one ∧
      one.rsaKey ≠ .ok ⟨Rsa.sampleKey.modulus, 1⟩ ∧
      small.rsaKey = .ok ⟨7, 3⟩ ∧
      create ⟨7, 3⟩ = .error ⟨some .key, .key (.size 3)⟩ ∧
      ∀ block, SignatureBlock.parse (List.replicate 1216 0) = .ok block →
        ∀ key, block.key.rsaKey ≠ .ok key := by
  have hbits : bitLength Rsa.sampleKey.modulus = 3072 := Rsa.usable_sampleKey.bitLength_eq
  have hodd : Rsa.sampleKey.modulus % 2 = 1 := Rsa.usable_sampleKey.modulus_odd
  have hexists (n e : Nat) (hbits : bitLength n = 3072) (hlt : e < 2 ^ 32) (hodd : n % 2 = 1) :
      ∃ record, create ⟨n, e⟩ = .ok record :=
    exists_create_iff.2 ⟨hbits, hlt, hodd⟩
  rcases hexists _ _ hbits Rsa.usable_sampleKey.exponent_lt hodd with ⟨record, hrecord⟩
  rcases hexists _ 1 hbits (by decide) hodd with ⟨one, hone⟩
  let small : KeyRecord :=
    ⟨Octets.ofNat 384 7, Octets.ofNat 4 3, Octets.fill 384 0, Octets.fill 4 0⟩
  rcases reconstruction_decides record.toOctets with ⟨-, -, -, -, -, hcreated⟩
  rcases reconstruction_decides small.toOctets with ⟨-, -, hsmall, -, -, -⟩
  rcases reconstruction_decides (Octets.fill 776 0) with ⟨-, hblock, hzeros, -, -, -⟩
  refine ⟨record, one, small, hrecord, ?_, hone, ?_, ?_, by decide, ?_⟩
  · exact (hcreated _ _ hrecord).2
      ⟨Rsa.usable_sampleKey.exponent_odd, Rsa.usable_sampleKey.three_le⟩
  · intro h
    have hthree : 3 ≤ 1 := ((hcreated _ _ hone).1 h).2
    exact absurd hthree (by decide)
  · have hmodulus : small.modulus = 7 := by decide +kernel
    have hexponent : small.exponent = 3 := by decide +kernel
    have hback : ofOctets small.toOctets = small := toOctets_injective (toOctets_ofOctets _)
    rw [hback, hmodulus, hexponent] at hsmall
    exact (hsmall ⟨7, 3⟩).2 ⟨⟨rfl, rfl, by decide, by decide⟩, rfl⟩
  · intro block hparse key hkey
    rw [hblock _ block hparse (by decide +kernel)] at hkey
    have hthree := ((hzeros key).1 hkey).1.three_le
    exact absurd hthree (by decide +kernel)

end KeyRecord

end SecureBoot
