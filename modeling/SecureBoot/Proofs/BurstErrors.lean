import SecureBoot.Proofs.BlockFormat
import SecureBoot.Proofs.Crc32
import SecureBoot.Proofs.Signing

/-!
# BurstErrors — no burst of errors in a block goes unnoticed

A block ends with its checksum and sixteen octets without a meaning.  A burst of errors before these
sixteen octets makes a valid block invalid, also if it runs into the checksum: the register after
the content and the checksum is the same for all valid blocks (`Crc32.feedAll_checksum`), and a
burst changes it (`Crc32.feedAll_ne_of_burst`).

Signed images inherit this from the block in them, whatever key they are verified against.  Nothing
here depends on what the hash of anything is.
-/

namespace SecureBoot

/-! ## Blocks -/

namespace SignatureBlock

/-- The second string is the first one after a burst of errors in its first 1200 octets. -/
structure Corrupted (data data' : Bytes) : Prop where
  burst : Crc32.Burst (data.take 1200) (data'.take 1200)
  rest : data.drop 1200 = data'.drop 1200

theorem Corrupted.length_eq {data data' : Bytes} (h : Corrupted data data') :
    data.length = data'.length := by
  have htake := h.burst.length_eq
  have hdrop := congrArg List.length h.rest
  calc
    data.length = (data.take 1200).length + (data.drop 1200).length := by
          rw [← List.length_append, List.take_append_drop]
    _ = (data'.take 1200).length + (data'.drop 1200).length := by rw [htake, hdrop]
    _ = data'.length := by rw [← List.length_append, List.take_append_drop]

theorem corrupted_set {data : Bytes} {i : Nat} {b : UInt8} (hi : i < 1200)
    (hlen : i < data.length) (hb : data.getD i 0 ≠ b) : Corrupted data (data.set i b) where
  burst := by
    have htake : i < (data.take 1200).length := by
      rw [List.length_take]
      exact lt_min hi hlen
    rw [List.take_set]
    apply Crc32.burst_set htake
    rw [List.getD_eq_getElem?_getD, List.getElem?_take_of_lt hi, ← List.getD_eq_getElem?_getD]
    exact hb
  rest := (List.drop_set_of_lt hi).symm

/-- Content and checksum of all valid blocks leave the same register. -/
theorem feedAll_of_valid {data : Bytes} (hlen : data.length = 1216) (h : Valid data) :
    Crc32.feedAll 0xffffffff (data.take 1200) = Crc32.residue := by
  have hstored : (segment data 1196 4).length = 4 := by
    rw [segment, List.length_take, List.length_drop, hlen]
    rfl
  rw [show 1200 = 1196 + 4 from rfl, take_add_segment]
  exact Crc32.feedAll_checksum hstored h.crc

theorem not_valid_of_corrupted {data data' : Bytes} (hlen : data.length = 1216) (h : Valid data)
    (hcorrupted : Corrupted data data') : ¬Valid data' := by
  intro h'
  -- Two valid blocks would leave one register.
  have hregister := feedAll_of_valid hlen h
  have hregister' := feedAll_of_valid (hcorrupted.length_eq ▸ hlen) h'
  exact Crc32.feedAll_ne_of_burst 0xffffffff hcorrupted.burst (hregister.trans hregister'.symm)

theorem exists_validityFault {artifact : Option Artifact} {data : Bytes} (h : ¬Valid data) :
    ∃ fault, firstFault (validityFaults artifact data) = some fault := by
  rw [← Option.ne_none_iff_exists']
  intro hnone
  exact h (firstFault_validityFaults_eq_none_iff.1 hnone)

/-- Errors behind the first two octets are found by the checksum. -/
theorem crc_of_take_eq {artifact : Option Artifact} {data data' : Bytes} {fault : Fault Empty}
    (h : Valid data) (hhead : data.take 2 = data'.take 2)
    (hfault : firstFault (validityFaults artifact data') = some fault) :
    ∃ stored computed, fault = ⟨artifact, .crc stored computed⟩ := by
  have hget (i : Nat) (hi : i < 2) : data'[i]? = data[i]? := by
    rw [← List.getElem?_take_of_lt hi, ← hhead, List.getElem?_take_of_lt hi]
  have hmagic : data'.getD 0 0 = 0xe7 :=
    (getD_eq_iff_getElem? (by decide)).2 ((hget 0 (by decide)).trans h.magic)
  have hversion : data'.getD 1 0 = 0x02 :=
    (getD_eq_iff_getElem? (by decide)).2 ((hget 1 (by decide)).trans h.version)
  simp only [validityFaults, faultUnless, if_pos hmagic, if_pos hversion,
    firstFault_none_cons] at hfault
  have hmem := mem_of_firstFault hfault
  exact ⟨_, _, eq_of_faultUnless (List.mem_singleton.1 hmem).symm⟩

end SignatureBlock

/-! ## Images -/

open SignatureBlock

namespace BootImage

theorem verify_of_invalid {front data rest : Bytes} {trusted : KeyRecord} {fault : Fault Empty}
    (hdata : data.length = 1216) (hrest : rest.length = 2880)
    (hmod : (front ++ data ++ rest).length % 4096 = 0)
    (hfault : firstFault (validityFaults (some .bootImage) data) = some fault) :
    verify (front ++ data ++ rest) trusted = .error fault := by
  have hne : (front ++ data ++ rest).length ≠ 0 := by
    rw [List.length_append, List.length_append, hdata, hrest]
    exact Nat.ne_of_gt (Nat.zero_lt_succ _)
  rw [verify_eq_error_iff, faults, segment_length_sub hdata hrest, faultUnless,
    if_pos ⟨hmod, hne⟩, firstFault_none_cons]
  exact firstFault_append_of_some hfault _

/-- Burst errors in the block of an accepted image. -/
theorem verify_of_corrupted {front data data' rest : Bytes} {trusted trusted' : KeyRecord}
    {block : SignatureBlock} (hdata : data.length = 1216) (hrest : rest.length = 2880)
    (h : verify (front ++ data ++ rest) trusted = .ok block) (hcorrupted : Corrupted data data') :
    ∃ fault, verify (front ++ data' ++ rest) trusted' = .error fault ∧
      firstFault (validityFaults (some .bootImage) data') = some fault := by
  have hgenuine := (verify_eq_ok_iff.1 h).1
  have hvalid := hgenuine.authentic.toValid
  rw [segment_length_sub hdata hrest] at hvalid
  have hlen : (front ++ data ++ rest).length = (front ++ data' ++ rest).length := by
    simp only [List.length_append, hcorrupted.length_eq]
  rcases exists_validityFault (not_valid_of_corrupted hdata hvalid hcorrupted) with
    ⟨fault, hfault⟩
  exact ⟨fault, verify_of_invalid (hcorrupted.length_eq ▸ hdata) hrest
    (hlen ▸ hgenuine.whole_sectors) hfault, hfault⟩

end BootImage

namespace OtaImage

/-- What the checks of an OTA-signed image find before they come to the key. -/
def integrityFaults (hash data : Bytes) : List (Option (Fault Empty)) :=
  faultUnless (hash = (Sha256.digest data).toBytes) ⟨some .otaImage, .blockHash⟩ ::
    validityFaults (some .otaImage) data

theorem verify_of_invalid {body hash data : Bytes} {trusted : KeyRecord} {fault : Fault Empty}
    (hhash : hash.length = 32) (hdata : data.length = 1216)
    (hmod : (body ++ hash ++ data).length % 4096 = 1248)
    (hle : 4096 ≤ (body ++ hash ++ data).length)
    (hfault : firstFault (integrityFaults hash data) = some fault) :
    verify (body ++ hash ++ data) trusted = .error fault := by
  rw [verify_eq_error_iff, faults, segment_length_sub hhash hdata, drop_length_sub hdata,
    faultUnless, if_pos ⟨hmod, hle⟩, firstFault_none_cons]
  exact firstFault_append_of_some hfault _

theorem verify_of_corrupted {body hash data data' : Bytes} {trusted trusted' : KeyRecord}
    {block : SignatureBlock} (hhash : hash.length = 32) (hdata : data.length = 1216)
    (h : verify (body ++ hash ++ data) trusted = .ok block) (hcorrupted : Corrupted data data') :
    ∃ fault, verify (body ++ hash ++ data') trusted' = .error fault ∧
      firstFault (integrityFaults hash data') = some fault := by
  have hgenuine := (verify_eq_ok_iff.1 h).1
  have hvalid := hgenuine.authentic.toValid
  rw [drop_length_sub hdata] at hvalid
  have hlen : (body ++ hash ++ data).length = (body ++ hash ++ data').length := by
    simp only [List.length_append, hcorrupted.length_eq]
  -- The block is invalid whether its hash is still the stored one or not.
  have hinvalid : ∃ fault, firstFault (integrityFaults hash data') = some fault := by
    unfold integrityFaults faultUnless
    split
    · exact exists_validityFault (not_valid_of_corrupted hdata hvalid hcorrupted)
    · exact ⟨_, rfl⟩
  rcases hinvalid with ⟨fault, hfault⟩
  exact ⟨fault, verify_of_invalid hhash (hcorrupted.length_eq ▸ hdata)
    (hlen ▸ hgenuine.length_mod) (hlen ▸ hgenuine.le_length) hfault, hfault⟩

end OtaImage

/-- A burst of errors in a valid block makes it invalid, and a signed image with that block in it is
refused under every key; the fault is the first that the checks before that of the key find. -/
theorem burst_detected :
    (∀ data data' block, unpack data = .ok block → Corrupted data data' →
      ∃ fault, unpack data' = .error fault ∧
        firstFault (validityFaults none data') = some fault ∧
        (data.take 2 = data'.take 2 → ∃ stored computed, fault = ⟨none, .crc stored computed⟩)) ∧
    (∀ front data data' rest trusted trusted' block, data.length = 1216 → rest.length = 2880 →
      BootImage.verify (front ++ data ++ rest) trusted = .ok block → Corrupted data data' →
      ∃ fault, BootImage.verify (front ++ data' ++ rest) trusted' = .error fault ∧
        firstFault (validityFaults (some .bootImage) data') = some fault) ∧
    ∀ body hash data data' trusted trusted' block, hash.length = 32 → data.length = 1216 →
      OtaImage.verify (body ++ hash ++ data) trusted = .ok block → Corrupted data data' →
      ∃ fault, OtaImage.verify (body ++ hash ++ data') trusted' = .error fault ∧
        firstFault (OtaImage.integrityFaults hash data') = some fault := by
  refine ⟨?_, ?_, ?_⟩
  · intro data data' block hunpack hcorrupted
    rcases valid_of_unpack hunpack with ⟨hlen, hvalid⟩
    rcases exists_validityFault (not_valid_of_corrupted hlen hvalid hcorrupted) with
      ⟨fault, hfault⟩
    refine ⟨fault, unpack_of_invalid (hcorrupted.length_eq ▸ hlen) hfault, hfault, ?_⟩
    intro hhead
    exact crc_of_take_eq hvalid hhead hfault
  · intro front data data' rest trusted trusted' block hdata hrest hverify hcorrupted
    exact BootImage.verify_of_corrupted hdata hrest hverify hcorrupted
  · intro body hash data data' trusted trusted' block hhash hdata hverify hcorrupted
    exact OtaImage.verify_of_corrupted hhash hdata hverify hcorrupted

/-- An image signed with the sample key is refused after a change of one octet without a meaning. -/
theorem burst_detected_sampleKey :
    ∃ front data rest trusted block,
      BootImage.verify (front ++ data ++ rest) trusted = .ok block ∧
      ∀ trusted', ∃ fault, BootImage.verify (front ++ data.set 2 1 ++ rest) trusted' =
        .error fault := by
  rcases KeyRecord.exists_rsaKey Rsa.usable_sampleKey with ⟨record, -, hkey⟩
  rcases SigningKey.exists_ofPrivateKey Rsa.usable_sampleKey with ⟨key, -, hsample⟩
  have husable : key.key.Usable := hsample ▸ Rsa.usable_sampleKey
  rw [← hsample] at hkey
  rcases SigningKey.exists_signature husable (Octets.fill 32 0)
    (Sha256.digest (Image.align [])) with ⟨signature, -, hsignature⟩
  have hverify : BootImage.verify (BootImage.assemble [] (Sha256.digest (Image.align [])) record
      signature).toBytes record = .ok (BootImage.assemble [] (Sha256.digest (Image.align []))
        record signature).block := BootImage.verify_assemble hkey hsignature
  rw [BootImage.toBytes_assemble] at hverify
  have hlen : (pack (Sha256.digest (Image.align [])) record signature).toBytes.length = 1216 :=
    length_toBytes _
  have hinside : 2 < (pack (Sha256.digest (Image.align [])) record signature).toBytes.length := by
    rw [hlen]
    decide
  have hreserved (digest : Digest) : (pack digest record signature).toBytes.getD 2 0 = 0 := rfl
  have hchange :
      (pack (Sha256.digest (Image.align [])) record signature).toBytes.getD 2 0 ≠ 1 := by
    rw [hreserved]
    decide
  have hcorrupted := corrupted_set (show 2 < 1200 by decide) hinside hchange
  refine ⟨_, _, _, record, _, hverify, fun trusted' => ?_⟩
  rcases burst_detected.2.1 _ _ _ _ record trusted' _ hlen (Image.length_fill _) hverify
    hcorrupted with ⟨fault, hfault, -⟩
  exact ⟨fault, hfault⟩

end SecureBoot
