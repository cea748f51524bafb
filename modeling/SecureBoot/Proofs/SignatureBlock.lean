import SecureBoot.Proofs.KeyRecord
import SecureBoot.SignatureBlock

/-!
# SignatureBlock — the octets of a block and its validity

* Reading and writing a block undo each other (`toOctets_ofOctets`, `ofOctets_toOctets`).
* What the checksum of a block that was read is over is the start of the octets that were read
  (`head_ofOctets`).
* An assembled block is valid and holds what it was assembled from (`validate_pack`).
-/

namespace SecureBoot

/-- The octet at a position, read off the string. -/
theorem Octets.getD_toBytes {n : Nat} (o : Octets n) {i : Nat} (h : i < n) :
    o.toBytes.getD i 0 = o.get i h := by
  have hlen : i < o.toBytes.length := by
    rw [o.length_toBytes]
    exact h
  rw [List.getD_eq_getElem?_getD, List.getElem?_eq_getElem hlen]
  rfl

/-! ## Blocks -/

namespace SignatureBlock

theorem head_ofOctets (data : Octets Layout.blockLength) :
    (ofOctets data).head = data.toBytes.take Layout.crcCoverage := by
  have hlen : data.toBytes.length = 1216 := data.length_toBytes
  -- The first two fields are single octets, not slices.
  have hfirst : data.toBytes.take 2 = [(ofOctets data).magic, (ofOctets data).version] := by
    apply List.ext_getElem
    · simp [hlen]
    · intro i hi hi'
      rw [List.getElem_take]
      rcases i with _ | _ | i
      · rfl
      · rfl
      · have hshort : i + 1 + 1 < 2 := hi'
        omega
  calc
    (ofOctets data).head
        = [(ofOctets data).magic, (ofOctets data).version] ++ ((data.toBytes.drop 2).take 2 ++
            (data.toBytes.drop 4).take 32 ++ (data.toBytes.drop 36).take 776 ++
            (data.toBytes.drop 812).take 384) := by
          rw [head, ofOctets, KeyRecord.toOctets_ofOctets]
          rfl
    _ = data.toBytes.take (2 + 2 + 32 + 776 + 384) := by
          rw [List.take_add (i := 2 + 2 + 32 + 776), List.take_add (i := 2 + 2 + 32),
            List.take_add (i := 2 + 2), List.take_add (i := 2), hfirst]
          simp only [List.append_assoc]

theorem toOctets_ofOctets (data : Octets Layout.blockLength) : (ofOctets data).toOctets = data := by
  apply Octets.ext
  have hlen : data.toBytes.length = 1216 := data.length_toBytes
  calc
    (ofOctets data).toOctets.toBytes
        = (ofOctets data).head ++ (data.toBytes.drop 1196).take 4 ++
            (data.toBytes.drop 1200).take 16 := rfl
    _ = data.toBytes.take 1196 ++ (data.toBytes.drop 1196).take 4 ++
            (data.toBytes.drop 1200).take 16 := by
          rw [head_ofOctets]
          rfl
    _ = data.toBytes.take (1196 + 4 + 16) := by
          rw [List.take_add (i := 1196 + 4), List.take_add (i := 1196)]
    _ = data.toBytes := List.take_of_length_le (Nat.le_of_eq hlen)

theorem length_toBytes (block : SignatureBlock) : block.toBytes.length = 1216 :=
  block.toOctets.length_toBytes

theorem exists_toBytes_eq {data : Bytes} (h : data.length = 1216) :
    ∃ block : SignatureBlock, block.toBytes = data :=
  ⟨ofOctets ⟨data, h⟩, congrArg Octets.toBytes (toOctets_ofOctets ⟨data, h⟩)⟩

theorem toOctets_injective : Function.Injective toOctets := by
  intro a b h
  have hbytes : a.head ++ a.storedCrc.toBytes ++ a.padding.toBytes =
      b.head ++ b.storedCrc.toBytes ++ b.padding.toBytes := congrArg Octets.toBytes h
  -- All fields have fixed lengths and come off one after the other, from either end.
  rcases List.append_inj' hbytes (by simp) with ⟨hbytes, hpadding⟩
  rcases List.append_inj' hbytes (by simp) with ⟨hhead, hcrc⟩
  rcases List.cons_eq_cons.1 hhead with ⟨hmagic, hhead⟩
  rcases List.cons_eq_cons.1 hhead with ⟨hversion, hhead⟩
  rcases List.append_inj' hhead (by simp) with ⟨hhead, hsignature⟩
  rcases List.append_inj' hhead (by simp) with ⟨hhead, hkey⟩
  rcases List.append_inj' hhead (by simp) with ⟨hreserved, hdigest⟩
  rcases a with ⟨amagic, aversion, areserved, adigest, akey, asignature, acrc, apadding⟩
  rcases b with ⟨bmagic, bversion, breserved, bdigest, bkey, bsignature, bcrc, bpadding⟩
  rw [mk.injEq]
  exact ⟨hmagic, hversion, Octets.ext hreserved, Octets.ext hdigest,
    KeyRecord.toOctets_injective (Octets.ext hkey), Octets.ext hsignature, Octets.ext hcrc,
    Octets.ext hpadding⟩

theorem ofOctets_toOctets (block : SignatureBlock) : ofOctets block.toOctets = block :=
  toOctets_injective (toOctets_ofOctets block.toOctets)

/-- A string holds a block if it has the length of one, and the block is the one whose octets it
is. -/
theorem parse_eq_ok_iff {data : Bytes} {block : SignatureBlock} :
    parse data = .ok block ↔ block.toBytes = data := by
  unfold parse Octets.ofBytes?
  constructor
  · intro h
    by_cases hlen : data.length = Layout.blockLength
    · rw [dif_pos hlen] at h
      cases h
      exact congrArg Octets.toBytes (toOctets_ofOctets ⟨data, hlen⟩)
    · rw [dif_neg hlen] at h
      cases h
  · intro h
    have hlen : data.length = Layout.blockLength := by
      rw [← h]
      exact block.toOctets.length_toBytes
    rw [dif_pos hlen]
    have hdata : (⟨data, hlen⟩ : Octets Layout.blockLength) = block.toOctets := Octets.ext h.symm
    exact congrArg Except.ok ((congrArg ofOctets hdata).trans (ofOctets_toOctets block))

theorem parse_toBytes (data : Octets Layout.blockLength) :
    parse data.toBytes = .ok (ofOctets data) :=
  parse_eq_ok_iff.2 (congrArg Octets.toBytes (toOctets_ofOctets data))

/-! ## Checksums -/

theorem crc_withCrc (block : SignatureBlock) : block.withCrc.crc = block.computedCrc := by
  have hlt : block.computedCrc.toNat < 256 ^ 4 := block.computedCrc.toNat_lt
  rw [crc, withCrc, Octets.toNat_ofNat, Nat.mod_eq_of_lt hlt, UInt32.ofNat_toNat]

/-! ## Validity -/

theorem validate_eq_ok_iff {block : SignatureBlock} :
    block.validate = .ok () ↔
      block.magic = Layout.magic ∧ block.version = Layout.version ∧
        block.crc = block.computedCrc := by
  unfold validate
  by_cases hmagic : block.magic = Layout.magic
  · by_cases hversion : block.version = Layout.version
    · by_cases hcrc : block.crc = block.computedCrc
      · simp [hmagic, hversion, hcrc]
      · simp [hmagic, hversion, hcrc]
    · simp [hmagic, hversion]
  · simp [hmagic]

theorem validate_pack (digest : Digest) (key : KeyRecord) (signature : Signature) :
    (pack digest key signature).validate = .ok () :=
  validate_eq_ok_iff.2 ⟨rfl, rfl, crc_withCrc _⟩

@[simp] theorem digest_pack (digest : Digest) (key : KeyRecord) (signature : Signature) :
    (pack digest key signature).digest = digest := rfl

@[simp] theorem key_pack (digest : Digest) (key : KeyRecord) (signature : Signature) :
    (pack digest key signature).key = key := rfl

@[simp] theorem signature_pack (digest : Digest) (key : KeyRecord) (signature : Signature) :
    (pack digest key signature).signature = signature :=
  Octets.reverse_reverse signature

end SignatureBlock

end SecureBoot
