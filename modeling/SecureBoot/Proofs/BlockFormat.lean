import Mathlib.Logic.ExistsUnique
import SecureBoot.Proofs.Verification

/-!
# BlockFormat — where the fields of a block stand, and which strings are valid blocks

* `codec_layout`: reading and writing a block are inverse to each other on all strings of 1216
  octets, and what is read stands at fixed offsets (`FieldsAt`).
* `unpack_decides`: a string is a valid block if it has the right length, the right first two octets
  and the checksum of its first 1196 octets.  Nothing else is asked of it: whatever the other fields
  hold, one checksum makes them a valid block (`existsUnique_stamped`).
-/

namespace SecureBoot

theorem segment_segment (bs : Bytes) {start len start' len' : Nat} (h : start' + len' ≤ len) :
    segment (segment bs start len) start' len' = segment bs (start + start') len' := by
  have hlen : min len' (len - start') = len' := by omega
  rw [segment, segment, segment, List.drop_take, List.take_take, List.drop_drop, hlen]

namespace SignatureBlock

/-! ## Layout -/

/-- The fields of a block are the octets at these offsets.  A number in them has its least
significant octet first; the signature is turned round and has its most significant one first. -/
structure FieldsAt (data : Bytes) (block : SignatureBlock) : Prop where
  magic : data[0]? = some block.magic
  version : data[1]? = some block.version
  reserved : segment data 2 2 = block.reserved.toBytes
  digest : segment data 4 32 = block.digest.toBytes
  modulus : littleEndian (segment data 36 384) = block.key.modulus
  exponent : littleEndian (segment data 420 4) = block.key.exponent
  montgomeryRR : littleEndian (segment data 424 384) = block.key.montgomeryRR
  montgomeryM : littleEndian (segment data 808 4) = block.key.montgomeryM
  signature : littleEndian (segment data 812 384) = block.signature.toNatBig
  crc : littleEndian (segment data 1196 4) = block.crc.toNat
  padding : segment data 1200 16 = block.padding.toBytes

theorem toNat_crc (block : SignatureBlock) : block.crc.toNat = block.storedCrc.toNat :=
  UInt32.toNat_ofNat_of_lt' block.storedCrc.toNat_lt

theorem fieldsAt_ofOctets (data : Octets Layout.blockLength) :
    FieldsAt data.toBytes (ofOctets data) := by
  have hlen : data.toBytes.length = 1216 := data.length_toBytes
  -- The record of the key is a segment of the block, and its fields are segments of the record.
  have hkey (start len : Nat) (h : start + len ≤ 776) :
      segment (segment data.toBytes 36 776) start len = segment data.toBytes (36 + start) len :=
    segment_segment data.toBytes h
  refine {
    magic := List.getElem?_eq_getElem (by omega)
    version := List.getElem?_eq_getElem (by omega)
    reserved := rfl
    digest := rfl
    modulus := ?_
    exponent := ?_
    montgomeryRR := ?_
    montgomeryM := ?_
    signature := ?_
    crc := ?_
    padding := rfl }
  · exact congrArg littleEndian (hkey 0 384 (by decide)).symm
  · exact congrArg littleEndian (hkey 384 4 (by decide)).symm
  · exact congrArg littleEndian (hkey 388 384 (by decide)).symm
  · exact congrArg littleEndian (hkey 772 4 (by decide)).symm
  · exact (Octets.toNatBig_reverse (ofOctets data).storedSignature).symm
  · rw [toNat_crc]
    rfl

theorem fieldsAt_of_parse {data : Bytes} {block : SignatureBlock} (h : parse data = .ok block) :
    FieldsAt data block := by
  have hfields := fieldsAt_ofOctets block.toOctets
  rw [ofOctets_toOctets] at hfields
  rw [← parse_eq_ok_iff.1 h]
  exact hfields

theorem parse_of_length {data : Bytes} (h : data.length ≠ 1216) :
    parse data = .error ⟨none, .blockLength data.length⟩ := by
  have hlen : ¬data.length = Layout.blockLength := h
  rw [parse, Octets.ofBytes?, dif_neg hlen]
  rfl

/-- Parsing is a bijection between the strings of 1216 octets and the blocks, with writing as its
inverse, and has the fields at the offsets of the hardware; a string of any other length is
refused. -/
theorem codec_layout :
    (∀ data : Bytes, data.length = 1216 →
      ∃ block, parse data = .ok block ∧ block.toBytes = data) ∧
    (∀ block : SignatureBlock, parse block.toBytes = .ok block) ∧
    (∀ data : Bytes, data.length ≠ 1216 →
      parse data = .error ⟨none, .blockLength data.length⟩) ∧
    ∀ data block, parse data = .ok block → FieldsAt data block := by
  refine ⟨?_, ?_, ?_, ?_⟩
  · intro data h
    rcases exists_toBytes_eq h with ⟨block, hblock⟩
    exact ⟨block, parse_eq_ok_iff.2 hblock, hblock⟩
  · intro block
    exact parse_eq_ok_iff.2 rfl
  · intro data h
    exact parse_of_length h
  · intro data block h
    exact fieldsAt_of_parse h

/-- Octets that count upwards show where a field stands; one octet more is no block. -/
theorem codec_layout_counting :
    ∃ block, parse ((List.range 1216).map UInt8.ofNat) = .ok block ∧
      block.key.exponent = 0xa7a6a5a4 ∧ block.key.montgomeryM = 0x2b2a2928 ∧
      block.crc.toNat = 0xafaeadac ∧
      parse ((List.range 1217).map UInt8.ofNat) = .error ⟨none, .blockLength 1217⟩ := by
  have hlen (n : Nat) : ((List.range n).map UInt8.ofNat).length = n := by
    rw [List.length_map, List.length_range]
  rcases codec_layout.1 _ (hlen 1216) with ⟨block, hparse, -⟩
  have hfields := codec_layout.2.2.2 _ block hparse
  have hlong := codec_layout.2.2.1 ((List.range 1217).map UInt8.ofNat) (by
    rw [hlen]
    decide)
  rw [hlen] at hlong
  refine ⟨block, hparse, ?_, ?_, ?_, hlong⟩
  · rw [← hfields.exponent]
    decide +kernel
  · rw [← hfields.montgomeryM]
    decide +kernel
  · rw [← hfields.crc]
    decide +kernel

/-! ## Validity -/

/-- What the checks of a string that should be a valid block find, in their order. -/
def formatFaults (data : Bytes) : List (Option (Fault Empty)) :=
  faultUnless (data.length = 1216) ⟨none, .blockLength data.length⟩ :: validityFaults none data

theorem unpack_toBytes (block : SignatureBlock) :
    unpack block.toBytes = outcome (validityFaults none block.toBytes) block := by
  have hvalid : block.validate = outcome (validityFaults none block.toBytes) () := by
    have hoctets := validate_ofOctets block.toOctets
    rw [ofOctets_toOctets] at hoctets
    exact hoctets
  rw [unpack, parse_eq_ok_iff.2 rfl, ok_bind, hvalid]
  exact (outcome_bind _ () (fun _ => []) fun _ => block).trans (by rw [List.append_nil])

theorem unpack_of_length {data : Bytes} (h : data.length ≠ 1216) :
    unpack data = .error ⟨none, .blockLength data.length⟩ := by
  rw [unpack, parse_of_length h]
  rfl

theorem unpack_eq_ok_iff {data : Bytes} {block : SignatureBlock} :
    unpack data = .ok block ↔ Valid data ∧ block.toBytes = data := by
  -- A string of the right length is that of a block, and the checks of the block are its own.
  by_cases h : data.length = 1216
  · rcases exists_toBytes_eq h with ⟨parsed, rfl⟩
    rw [unpack_toBytes, outcome_eq_ok_iff, firstFault_validityFaults_eq_none_iff]
    constructor
    · rintro ⟨hvalid, rfl⟩
      exact ⟨hvalid, rfl⟩
    · rintro ⟨hvalid, hbytes⟩
      exact ⟨hvalid, (toOctets_injective (Octets.ext hbytes)).symm⟩
  · rw [unpack_of_length h]
    constructor
    · intro herror
      cases herror
    · rintro ⟨-, rfl⟩
      exact absurd block.length_toBytes h

theorem unpack_eq_error_iff {data : Bytes} {fault : Fault Empty} :
    unpack data = .error fault ↔ firstFault (formatFaults data) = some fault := by
  by_cases h : data.length = 1216
  · rcases exists_toBytes_eq h with ⟨block, rfl⟩
    rw [unpack_toBytes, outcome_eq_error_iff, formatFaults, faultUnless, if_pos h,
      firstFault_none_cons]
  · rw [unpack_of_length h, formatFaults, faultUnless, if_neg h, Except.error.injEq,
      ← Option.some.injEq]
    rfl

/-- What is unpacked has the length of a block and is valid. -/
theorem valid_of_unpack {data : Bytes} {block : SignatureBlock} (h : unpack data = .ok block) :
    data.length = 1216 ∧ Valid data := by
  rcases unpack_eq_ok_iff.1 h with ⟨hvalid, rfl⟩
  exact ⟨block.length_toBytes, hvalid⟩

theorem unpack_of_invalid {data : Bytes} {fault : Fault Empty} (hlen : data.length = 1216)
    (h : firstFault (validityFaults none data) = some fault) : unpack data = .error fault := by
  rw [unpack_eq_error_iff, formatFaults, faultUnless, if_pos hlen, firstFault_none_cons]
  exact h

/-- The block with the first two octets of a valid one, and with a given checksum. -/
def stamped (block : SignatureBlock) (stored : Octets 4) : SignatureBlock :=
  { block with magic := Layout.magic, version := Layout.version, storedCrc := stored }

theorem unpack_stamped_iff {block : SignatureBlock} {stored : Octets 4} :
    unpack (block.stamped stored).toBytes = .ok (block.stamped stored) ↔
      (block.stamped stored).crc = (block.stamped stored).computedCrc := by
  have hunpack : unpack (block.stamped stored).toBytes =
      ((block.stamped stored).validate >>= fun _ => .ok (block.stamped stored)) := by
    rw [unpack, parse_eq_ok_iff.2 rfl]
    rfl
  rw [hunpack]
  constructor
  · intro h
    cases hvalid : (block.stamped stored).validate with
    | error fault =>
        rw [hvalid] at h
        cases h
    | ok => exact (validate_eq_ok_iff.1 hvalid).2.2
  · intro h
    rw [validate_eq_ok_iff.2 ⟨rfl, rfl, h⟩]
    rfl

theorem existsUnique_stamped (block : SignatureBlock) :
    ∃! stored, unpack (block.stamped stored).toBytes = .ok (block.stamped stored) := by
  -- The checksum is over what stands before it and does not depend on the stored one.
  have hcomputed (stored : Octets 4) :
      (block.stamped stored).computedCrc = (block.stamped (Octets.fill 4 0)).computedCrc := rfl
  refine ⟨Octets.ofNat 4 (block.stamped (Octets.fill 4 0)).computedCrc.toNat, ?_, ?_⟩
  · exact unpack_stamped_iff.2 (crc_withCrc (block.stamped (Octets.fill 4 0)))
  · intro stored h
    have hcrc := unpack_stamped_iff.1 h
    rw [hcomputed] at hcrc
    have hstored : (block.stamped stored).crc.toNat = stored.toNat := toNat_crc _
    rw [← hcrc, hstored, Octets.ofNat_toNat]

/-- Unpacking accepts exactly the strings of the right length that are valid, as the block that
parsing reads and writing gives back; for any other string it reports the first fault.  No field but
the first two octets and the checksum can make it refuse a block. -/
theorem unpack_decides :
    (∀ data : Bytes,
      ((∃ block, unpack data = .ok block) ↔ data.length = 1216 ∧ Valid data) ∧
      (∀ block, unpack data = .ok block ↔
        (data.length = 1216 ∧ Valid data) ∧ parse data = .ok block ∧ block.toBytes = data) ∧
      ∀ fault, unpack data = .error fault ↔ firstFault (formatFaults data) = some fault) ∧
    ∀ block : SignatureBlock,
      ∃! stored, unpack (block.stamped stored).toBytes = .ok (block.stamped stored) := by
  refine ⟨?_, existsUnique_stamped⟩
  intro data
  refine ⟨?_, ?_, ?_⟩
  · constructor
    · rintro ⟨block, h⟩
      exact valid_of_unpack h
    · rintro ⟨hlen, hvalid⟩
      rcases exists_toBytes_eq hlen with ⟨block, hbytes⟩
      exact ⟨block, unpack_eq_ok_iff.2 ⟨hvalid, hbytes⟩⟩
  · intro block
    rw [unpack_eq_ok_iff, parse_eq_ok_iff]
    constructor
    · rintro ⟨hvalid, hbytes⟩
      exact ⟨⟨hbytes ▸ block.length_toBytes, hvalid⟩, hbytes, hbytes⟩
    · rintro ⟨⟨-, hvalid⟩, hbytes, -⟩
      exact ⟨hvalid, hbytes⟩
  · intro fault
    exact unpack_eq_error_iff

end SignatureBlock

end SecureBoot
