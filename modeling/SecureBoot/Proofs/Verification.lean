import SecureBoot.BootImage
import SecureBoot.OtaImage
import SecureBoot.Proofs.Checks
import SecureBoot.Proofs.SignatureBlock

/-!
# Verification — which images are accepted, and which fault any other image has

Both kinds of signed images are verified by one procedure behind different framing:
`SignatureBlock.authenticate` checks a block, the trusted key, the digest of the signed content and
the signature.  Everything here is stated on the octets of the image, at fixed offsets.

* `Valid` and `Authentic` collect the conditions on a block, `BootImage.Genuine` and
  `OtaImage.Genuine` those on an image.  `verify` accepts exactly the genuine images.
* `BootImage.faults` and `OtaImage.faults` list what each check finds, in the order of the checks.
  For any other image `verify` reports the first fault in the list.
-/

namespace SecureBoot

/-! ## Blocks -/

/-- The `len` octets from a position on. -/
def segment (bs : Bytes) (start len : Nat) : Bytes :=
  (bs.drop start).take len

theorem segment_append (front : Bytes) {data : Bytes} {len : Nat} (rest : Bytes)
    (h : data.length = len) : segment (front ++ data ++ rest) front.length len = data := by
  rw [segment, List.append_assoc, List.drop_left, ← h, List.take_left]

theorem take_add_segment (data : Bytes) (start len : Nat) :
    data.take (start + len) = data.take start ++ segment data start len :=
  List.take_add

/-- The octets of a valid block, read off at their places. -/
structure Valid (data : Bytes) : Prop where
  magic : data[0]? = some 0xe7
  version : data[1]? = some 0x02
  crc : littleEndian (segment data 1196 4) = (Crc32.checksum (data.take 1196)).toNat

/-- A valid block that stands for signed content under a trusted key. -/
structure Authentic (data content : Bytes) (trusted : KeyRecord) : Prop extends Valid data where
  key : trusted.publicKey.check = .ok ()
  digest : segment data 4 32 = (Sha256.digest content).toBytes
  signature :
    Pss.verify trusted.publicKey (Sha256.digest content) (segment data 812 384).reverse = true

/-- What the checks of magic octet, version and checksum find. -/
def validityFaults (artifact : Option Artifact) (data : Bytes) : List (Option (Fault Empty)) :=
  let magic := data.getD 0 0
  let version := data.getD 1 0
  let stored := UInt32.ofNat (littleEndian (segment data 1196 4))
  let computed := Crc32.checksum (data.take 1196)
  [faultUnless (magic = 0xe7) ⟨artifact, .magic magic⟩,
    faultUnless (version = 0x02) ⟨artifact, .version version⟩,
    faultUnless (stored = computed) ⟨artifact, .crc stored computed⟩]

/-- What the check of a trusted key finds. -/
def keyFault (trusted : KeyRecord) : Option (Fault Empty) :=
  match trusted.publicKey.check with
  | .ok () => none
  | .error rejection => some ⟨some .key, .key (.rejected rejection)⟩

/-- What the checks of digest and signature find. -/
def signatureFaults (artifact : Option Artifact) (data content : Bytes) (key : Rsa.PublicKey) :
    List (Option (Fault Empty)) :=
  let digest := Sha256.digest content
  [faultUnless (segment data 4 32 = digest.toBytes) ⟨artifact, .digest⟩,
    faultUnless (Pss.verify key digest (segment data 812 384).reverse = true)
      ⟨artifact, .signature⟩]

/-- What all checks of a block find, in their order; `artifact` is where the block was found. -/
def blockFaults (artifact : Artifact) (data content : Bytes) (trusted : KeyRecord) :
    List (Option (Fault Empty)) :=
  validityFaults (some artifact) data ++ ([keyFault trusted] ++
    signatureFaults (some artifact) data content trusted.publicKey)

theorem keyFault_eq_none_iff {trusted : KeyRecord} :
    keyFault trusted = none ↔ trusted.publicKey.check = .ok () := by
  unfold keyFault
  cases trusted.publicKey.check with
  | ok => simp
  | error rejection => simp

theorem getD_eq_iff_getElem? {bs : Bytes} {i : Nat} {b : UInt8} (hb : b ≠ 0) :
    bs.getD i 0 = b ↔ bs[i]? = some b := by
  rw [List.getD_eq_getElem?_getD]
  cases bs[i]? with
  | none => simp [hb.symm]
  | some c => simp

/-- At most four octets are a word if they are the number that the word is. -/
theorem ofNat_littleEndian_eq_iff {bs : Bytes} {word : UInt32} (hlen : bs.length ≤ 4) :
    UInt32.ofNat (littleEndian bs) = word ↔ littleEndian bs = word.toNat := by
  have hlt : littleEndian bs < 2 ^ 32 :=
    Nat.lt_of_lt_of_le (littleEndian_lt bs) (Nat.pow_le_pow_right (by decide) hlen)
  rw [← UInt32.toNat_inj, UInt32.toNat_ofNat_of_lt' hlt]

theorem firstFault_validityFaults_eq_none_iff {artifact : Option Artifact} {data : Bytes} :
    firstFault (validityFaults artifact data) = none ↔ Valid data := by
  have hstored : (segment data 1196 4).length ≤ 4 := List.length_take_le 4 _
  simp only [firstFault_eq_none_iff, validityFaults, List.forall_mem_cons, faultUnless_eq_none_iff,
    getD_eq_iff_getElem? (show (0xe7 : UInt8) ≠ 0 by decide),
    getD_eq_iff_getElem? (show (0x02 : UInt8) ≠ 0 by decide), ofNat_littleEndian_eq_iff hstored]
  constructor
  · rintro ⟨hmagic, hversion, hcrc, -⟩
    exact ⟨hmagic, hversion, hcrc⟩
  · rintro ⟨hmagic, hversion, hcrc⟩
    exact ⟨hmagic, hversion, hcrc, by simp⟩

theorem firstFault_signatureFaults_eq_none_iff {artifact : Option Artifact} {data content : Bytes}
    {key : Rsa.PublicKey} :
    firstFault (signatureFaults artifact data content key) = none ↔
      segment data 4 32 = (Sha256.digest content).toBytes ∧
        Pss.verify key (Sha256.digest content) (segment data 812 384).reverse = true := by
  simp [firstFault_eq_none_iff, signatureFaults, faultUnless_eq_none_iff]

theorem firstFault_blockFaults_eq_none_iff {artifact : Artifact} {data content : Bytes}
    {trusted : KeyRecord} :
    firstFault (blockFaults artifact data content trusted) = none ↔
      Authentic data content trusted := by
  have hkey : firstFault [keyFault trusted] = none ↔ trusted.publicKey.check = .ok () := by
    rw [firstFault_eq_none_iff, List.forall_mem_singleton, keyFault_eq_none_iff]
  rw [blockFaults, firstFault_append_eq_none_iff, firstFault_append_eq_none_iff,
    firstFault_validityFaults_eq_none_iff, hkey, firstFault_signatureFaults_eq_none_iff]
  constructor
  · rintro ⟨hvalid, hkey, hdigest, hsignature⟩
    exact ⟨hvalid, hkey, hdigest, hsignature⟩
  · rintro ⟨hvalid, hkey, hdigest, hsignature⟩
    exact ⟨hvalid, hkey, hdigest, hsignature⟩

/-- A block that was cut out of an image has the right length. -/
theorem blockLength_not_mem_blockFaults {artifact : Artifact} {data content : Bytes}
    {trusted : KeyRecord} (attributed : Option Artifact) (length : Nat) :
    some ⟨attributed, .blockLength length⟩ ∉ blockFaults artifact data content trusted := by
  intro h
  simp only [blockFaults, validityFaults, signatureFaults, List.mem_append, List.mem_cons,
    List.not_mem_nil, or_false] at h
  rcases h with (h | h | h) | h | h | h
  · cases eq_of_faultUnless h.symm
  · cases eq_of_faultUnless h.symm
  · cases eq_of_faultUnless h.symm
  · unfold keyFault at h
    split at h
    · cases h
    · cases h
  · cases eq_of_faultUnless h.symm
  · cases eq_of_faultUnless h.symm

namespace SignatureBlock

theorem validate_ofOctets (data : Octets Layout.blockLength) :
    (ofOctets data).validate = outcome (validityFaults none data.toBytes) () := by
  have hmagic : data.toBytes.getD 0 0 = (ofOctets data).magic := data.getD_toBytes (by decide)
  have hversion : data.toBytes.getD 1 0 = (ofOctets data).version := data.getD_toBytes (by decide)
  have hstored : UInt32.ofNat (littleEndian (segment data.toBytes 1196 4)) = (ofOctets data).crc :=
    rfl
  have hcomputed : Crc32.checksum (data.toBytes.take 1196) = (ofOctets data).computedCrc :=
    congrArg Crc32.checksum (head_ofOctets data).symm
  simp only [validityFaults, hmagic, hversion, hstored, hcomputed]
  generalize ofOctets data = block
  unfold validate
  by_cases hmagic : block.magic = Layout.magic
  · by_cases hversion : block.version = Layout.version
    · by_cases hcrc : block.crc = block.computedCrc
      · simp [faultUnless, hmagic, hversion, hcrc]
        rfl
      · simp [faultUnless, hmagic, hversion, hcrc, Fault.of]
    · simp [faultUnless, hmagic, hversion, Fault.of]
  · simp [faultUnless, hmagic, Fault.of]

theorem verifyDigest_ofOctets (data : Octets Layout.blockLength) (content : Bytes)
    (key : Rsa.PublicKey) :
    (ofOctets data).verifyDigest (Sha256.digest content) key =
      outcome (signatureFaults none data.toBytes content key) () := by
  have hdigest : segment data.toBytes 4 32 = (ofOctets data).digest.toBytes := rfl
  have hsignature : (segment data.toBytes 812 384).reverse = (ofOctets data).signature.toBytes :=
    rfl
  -- The list compares octets, the procedure digests, and in the other order.
  have hext : (ofOctets data).digest.toBytes = (Sha256.digest content).toBytes ↔
      Sha256.digest content = (ofOctets data).digest := by
    constructor
    · intro h
      exact Octets.ext h.symm
    · intro h
      rw [h]
  simp only [signatureFaults, hdigest, hsignature, hext]
  generalize ofOctets data = block
  generalize Sha256.digest content = digest
  unfold verifyDigest
  by_cases hdigest : digest = block.digest
  · subst hdigest
    by_cases hsignature : Pss.verify key block.digest block.signature.toBytes = true
    · simp [faultUnless, hsignature]
      rfl
    · simp [faultUnless, hsignature, Fault.of]
  · simp [faultUnless, hdigest, Fault.of]

/-! ### Authentication -/

/-- What both kinds of verification do once they have a block and the content it stands for. -/
def authenticate (block : SignatureBlock) (content : Bytes) (trusted : KeyRecord) :
    Checked SignatureBlock := do
  block.validate
  let key ← trusted.rsaKey
  block.verifyDigest (Sha256.digest content) key
  return block

theorem mapError_authenticate (artifact : Artifact) (data : Octets Layout.blockLength)
    (content : Bytes) (trusted : KeyRecord) :
    ((ofOctets data).authenticate content trusted).mapError (Fault.on artifact) =
      outcome (blockFaults artifact data.toBytes content trusted) (ofOctets data) := by
  have hvalid : (ofOctets data).validate.mapError (Fault.on artifact) =
      outcome (validityFaults (some artifact) data.toBytes) () := by
    rw [validate_ofOctets, mapError_outcome]
    simp only [validityFaults, List.map_cons, List.map_nil, map_faultUnless]
    rfl
  -- A rejected key has its artifact already, and the attribution leaves it alone.
  have hkey : trusted.rsaKey.mapError (Fault.on artifact) =
      outcome [keyFault trusted] trusted.publicKey := by
    unfold KeyRecord.rsaKey keyFault
    cases trusted.publicKey.check with
    | ok => rfl
    | error rejection => rfl
  have hdigest (key : Rsa.PublicKey) :
      ((ofOctets data).verifyDigest (Sha256.digest content) key).mapError (Fault.on artifact) =
        outcome (signatureFaults (some artifact) data.toBytes content key) () := by
    rw [verifyDigest_ofOctets, mapError_outcome]
    simp only [signatureFaults, List.map_cons, List.map_nil, map_faultUnless]
    rfl
  calc
    ((ofOctets data).authenticate content trusted).mapError (Fault.on artifact)
        = ((ofOctets data).validate.mapError (Fault.on artifact) >>= fun _ =>
            trusted.rsaKey.mapError (Fault.on artifact) >>= fun key =>
              ((ofOctets data).verifyDigest (Sha256.digest content) key).mapError
                (Fault.on artifact) >>= fun _ => outcome [] (ofOctets data)) := by
          simp only [authenticate, mapError_bind]
          rfl
    _ = outcome (blockFaults artifact data.toBytes content trusted) (ofOctets data) := by
          simp only [hvalid, hkey, hdigest, outcome_bind, List.append_nil]
          rfl

theorem mapError_authenticate_eq (artifact : Artifact) (block : SignatureBlock) (content : Bytes)
    (trusted : KeyRecord) :
    (block.authenticate content trusted).mapError (Fault.on artifact) =
      outcome (blockFaults artifact block.toBytes content trusted) block := by
  have hoctets := mapError_authenticate artifact block.toOctets content trusted
  rw [ofOctets_toOctets] at hoctets
  exact hoctets

/-- A block is authenticated if its octets are authentic, and is the block that they hold. -/
theorem outcome_blockFaults_eq_ok_iff {artifact : Artifact} {data : Octets Layout.blockLength}
    {content : Bytes} {trusted : KeyRecord} {block : SignatureBlock} :
    outcome (blockFaults artifact data.toBytes content trusted) (ofOctets data) = .ok block ↔
      Authentic data.toBytes content trusted ∧ block.toBytes = data.toBytes := by
  rw [outcome_eq_ok_iff, firstFault_blockFaults_eq_none_iff]
  constructor
  · rintro ⟨hauthentic, hblock⟩
    refine ⟨hauthentic, ?_⟩
    rw [← hblock, toBytes, toOctets_ofOctets]
  · rintro ⟨hauthentic, hbytes⟩
    refine ⟨hauthentic, toOctets_injective ?_⟩
    rw [toOctets_ofOctets]
    exact Octets.ext hbytes.symm

end SignatureBlock

/-! ## Boot-signed images -/

namespace BootImage

structure Genuine (image : Bytes) (trusted : KeyRecord) : Prop where
  whole_sectors : image.length % 4096 = 0
  nonempty : image.length ≠ 0
  /-- The last sector starts with a block that stands for the sectors before it. -/
  authentic : Authentic (segment image (image.length - 4096) 1216)
    (image.take (image.length - 4096)) trusted

/-- What the checks of a boot-signed image find, in their order. -/
def faults (image : Bytes) (trusted : KeyRecord) : List (Option (Fault Empty)) :=
  faultUnless (image.length % 4096 = 0 ∧ image.length ≠ 0)
      ⟨some .bootImage, .imageLength image.length 0⟩ ::
    blockFaults .bootImage (segment image (image.length - 4096) 1216)
      (image.take (image.length - 4096)) trusted

/-! ### Framing -/

section Framing

variable {front data rest : Bytes}

theorem length_sub_sector (hdata : data.length = 1216) (hrest : rest.length = 2880) :
    (front ++ data ++ rest).length - 4096 = front.length := by
  rw [List.length_append, List.length_append, hdata, hrest]
  exact Nat.add_sub_cancel front.length 4096

theorem take_length_sub (hdata : data.length = 1216) (hrest : rest.length = 2880) :
    (front ++ data ++ rest).take ((front ++ data ++ rest).length - 4096) = front := by
  rw [length_sub_sector hdata hrest, List.append_assoc, List.take_left]

theorem segment_length_sub (hdata : data.length = 1216) (hrest : rest.length = 2880) :
    segment (front ++ data ++ rest) ((front ++ data ++ rest).length - 4096) 1216 = data := by
  rw [length_sub_sector hdata hrest]
  exact segment_append front rest hdata

end Framing

/-! ### Decision -/

theorem toBytes_blockOctets (image : BootImage) :
    image.blockOctets.toBytes = segment image.toBytes (image.toBytes.length - 4096) 1216 := by
  simp only [blockOctets, Octets.slice, sector, List.drop_zero]
  rfl

section Parts

variable {image : BootImage} {front rest : Bytes} {block : SignatureBlock}
  (h : image.toBytes = front ++ block.toBytes ++ rest) (hrest : rest.length = 2880)

include h hrest

theorem payload_of_toBytes : image.payload = front := by
  rw [payload, h]
  exact take_length_sub (SignatureBlock.length_toBytes _) hrest

theorem block_of_toBytes : image.block = block := by
  have hoctets : image.blockOctets = block.toOctets := by
    apply Octets.ext
    rw [toBytes_blockOctets, h]
    exact segment_length_sub (SignatureBlock.length_toBytes _) hrest
  rw [BootImage.block, hoctets, SignatureBlock.ofOctets_toOctets]

end Parts

theorem ofBytes_toBytes (image : BootImage) : ofBytes image.toBytes = .ok image := by
  rw [ofBytes, dif_pos ⟨image.length_mod, image.le_length⟩]

theorem verify_toBytes (image : BootImage) (trusted : KeyRecord) :
    verify image.toBytes trusted =
      (image.block.authenticate image.payload trusted).mapError (Fault.on .bootImage) := by
  have hblock : image.verifyBlock trusted = image.block.authenticate image.payload trusted := rfl
  rw [verify, ofBytes_toBytes, ok_bind, hblock]

theorem verify_eq_outcome (image : BootImage) (trusted : KeyRecord) :
    verify image.toBytes trusted =
      outcome (blockFaults .bootImage image.blockOctets.toBytes image.payload trusted)
        image.block := by
  rw [verify_toBytes, block, SignatureBlock.mapError_authenticate]

theorem verify_of_length {image : Bytes} (trusted : KeyRecord)
    (h : ¬(image.length % 4096 = 0 ∧ image.length ≠ 0)) :
    verify image trusted = .error ⟨some .bootImage, .imageLength image.length 0⟩ := by
  have hlen : ¬(image.length % Layout.sectorLength = 0 ∧ Layout.sectorLength ≤ image.length) := by
    rintro ⟨hmod, hle⟩
    exact h ⟨hmod, Nat.ne_of_gt (Nat.lt_of_lt_of_le (by decide) hle)⟩
  rw [verify, ofBytes, dif_neg hlen]
  rfl

/-- A string of whole sectors, at least one, is an image. -/
theorem exists_toBytes_eq {image : Bytes} (h : image.length % 4096 = 0 ∧ image.length ≠ 0) :
    ∃ boot : BootImage, boot.toBytes = image := by
  have hmod : image.length % Layout.sectorLength = 0 := h.1
  have hle : Layout.sectorLength ≤ image.length :=
    Nat.le_of_dvd (Nat.pos_of_ne_zero h.2) (Nat.dvd_of_mod_eq_zero hmod)
  exact ⟨⟨image, hmod, hle⟩, rfl⟩

/-- Any block can stand behind whole sectors, and anything behind the block. -/
theorem exists_framed {front rest : Bytes} (hmod : front.length % 4096 = 0)
    (block : SignatureBlock) (hrest : rest.length = 2880) :
    ∃ image : BootImage, image.toBytes = front ++ block.toBytes ++ rest ∧
      image.payload = front ∧ image.block = block := by
  have hdata : block.toBytes.length = 1216 := block.length_toBytes
  have hlen : (front ++ block.toBytes ++ rest).length % 4096 = 0 ∧
      (front ++ block.toBytes ++ rest).length ≠ 0 := by
    simp only [List.length_append, hdata, hrest]
    omega
  rcases exists_toBytes_eq hlen with ⟨image, hbytes⟩
  exact ⟨image, hbytes, payload_of_toBytes hbytes hrest, block_of_toBytes hbytes hrest⟩

theorem verify_framed {front rest : Bytes} (hmod : front.length % 4096 = 0)
    (block : SignatureBlock) (hrest : rest.length = 2880) (trusted : KeyRecord) :
    verify (front ++ block.toBytes ++ rest) trusted =
      (block.authenticate front trusted).mapError (Fault.on .bootImage) := by
  rcases exists_framed hmod block hrest with ⟨image, hbytes, hpayload, hblock⟩
  rw [← hbytes, verify_toBytes, hblock, hpayload]

theorem verify_eq_ok_iff {image : Bytes} {trusted : KeyRecord} {block : SignatureBlock} :
    verify image trusted = .ok block ↔
      Genuine image trusted ∧ block.toBytes = segment image (image.length - 4096) 1216 := by
  by_cases h : image.length % 4096 = 0 ∧ image.length ≠ 0
  · rcases exists_toBytes_eq h with ⟨boot, rfl⟩
    rw [verify_eq_outcome, BootImage.block, SignatureBlock.outcome_blockFaults_eq_ok_iff,
      toBytes_blockOctets, payload]
    constructor
    · rintro ⟨hauthentic, hbytes⟩
      exact ⟨⟨h.1, h.2, hauthentic⟩, hbytes⟩
    · rintro ⟨hgenuine, hbytes⟩
      exact ⟨hgenuine.authentic, hbytes⟩
  · rw [verify_of_length trusted h]
    constructor
    · intro herror
      cases herror
    · rintro ⟨hgenuine, -⟩
      exact absurd ⟨hgenuine.whole_sectors, hgenuine.nonempty⟩ h

theorem verify_eq_error_iff {image : Bytes} {trusted : KeyRecord} {fault : Fault Empty} :
    verify image trusted = .error fault ↔ firstFault (faults image trusted) = some fault := by
  by_cases h : image.length % 4096 = 0 ∧ image.length ≠ 0
  · rcases exists_toBytes_eq h with ⟨boot, rfl⟩
    rw [verify_eq_outcome, outcome_eq_error_iff, faults, faultUnless, if_pos h,
      toBytes_blockOctets, payload, firstFault_none_cons]
  · rw [verify_of_length trusted h, faults, faultUnless, if_neg h, Except.error.injEq,
      ← Option.some.injEq]
    rfl

/-- Verification accepts exactly the genuine images and gives back the block at the start of the
last sector; of any other image it reports the first fault, which is never one of the length of a
block. -/
theorem verify_decides_boot (image : Bytes) (trusted : KeyRecord) :
    (∀ block, verify image trusted = .ok block ↔
      Genuine image trusted ∧ block.toBytes = segment image (image.length - 4096) 1216) ∧
    (∀ fault, verify image trusted = .error fault ↔
      firstFault (faults image trusted) = some fault) ∧
    ∀ artifact length, verify image trusted ≠ .error ⟨artifact, .blockLength length⟩ := by
  refine ⟨fun _ => verify_eq_ok_iff, fun _ => verify_eq_error_iff, ?_⟩
  intro artifact length hverify
  rcases List.mem_cons.1 (mem_of_firstFault (verify_eq_error_iff.1 hverify)) with hlength | hblock
  · cases eq_of_faultUnless hlength.symm
  · exact blockLength_not_mem_blockFaults artifact length hblock

end BootImage

/-! ## OTA-signed images -/

namespace OtaImage

structure Genuine (image : Bytes) (trusted : KeyRecord) : Prop where
  length_mod : image.length % 4096 = 1248
  le_length : 4096 ≤ image.length
  block_hash :
    segment image (image.length - 1248) 32 =
      (Sha256.digest (image.drop (image.length - 1216))).toBytes
  /-- The string ends with a block that stands for everything before the record. -/
  authentic :
    Authentic (image.drop (image.length - 1216)) (image.take (image.length - 1248)) trusted

/-- What the checks of an OTA-signed image find, in their order. -/
def faults (image : Bytes) (trusted : KeyRecord) : List (Option (Fault Empty)) :=
  faultUnless (image.length % 4096 = 1248 ∧ 4096 ≤ image.length)
      ⟨some .otaImage, .imageLength image.length 1248⟩ ::
    faultUnless (segment image (image.length - 1248) 32 =
        (Sha256.digest (image.drop (image.length - 1216))).toBytes) ⟨some .otaImage, .blockHash⟩ ::
    blockFaults .otaImage (image.drop (image.length - 1216))
      (image.take (image.length - 1248)) trusted

/-! ### Framing -/

section Framing

variable {body hash data : Bytes}

theorem length_sub_record (hhash : hash.length = 32) (hdata : data.length = 1216) :
    (body ++ hash ++ data).length - 1248 = body.length := by
  rw [List.length_append, List.length_append, hhash, hdata]
  exact Nat.add_sub_cancel body.length 1248

theorem take_length_sub (hhash : hash.length = 32) (hdata : data.length = 1216) :
    (body ++ hash ++ data).take ((body ++ hash ++ data).length - 1248) = body := by
  rw [length_sub_record hhash hdata, List.append_assoc, List.take_left]

theorem segment_length_sub (hhash : hash.length = 32) (hdata : data.length = 1216) :
    segment (body ++ hash ++ data) ((body ++ hash ++ data).length - 1248) 32 = hash := by
  rw [length_sub_record hhash hdata]
  exact segment_append body data hhash

theorem drop_length_sub (hdata : data.length = 1216) :
    (body ++ hash ++ data).drop ((body ++ hash ++ data).length - 1216) = data := by
  have hlen : (body ++ hash ++ data).length - 1216 = (body ++ hash).length := by
    rw [List.length_append, hdata, Nat.add_sub_cancel]
  rw [hlen, List.drop_left]

end Framing

/-! ### Decision -/

theorem toBytes_blockOctets (image : OtaImage) :
    image.blockOctets.toBytes = image.toBytes.drop (image.toBytes.length - 1216) := by
  have hle : 4096 ≤ image.toBytes.length := image.le_length
  have hdrop : image.toBytes.length - 1248 + 32 = image.toBytes.length - 1216 := by omega
  have htake : (image.toBytes.drop (image.toBytes.length - 1216)).length ≤ 1216 := by
    rw [List.length_drop]
    omega
  calc
    image.blockOctets.toBytes
        = ((image.toBytes.drop (image.toBytes.length - 1248)).drop 32).take 1216 := by
          simp only [blockOctets, Octets.slice, record, Layout.otaRecordLength_eq]
          rfl
    _ = image.toBytes.drop (image.toBytes.length - 1216) := by
          rw [List.drop_drop, hdrop, List.take_of_length_le htake]

theorem toBytes_blockHash (image : OtaImage) :
    image.blockHash.toBytes = segment image.toBytes (image.toBytes.length - 1248) 32 := by
  simp only [blockHash, Octets.slice, record, List.drop_zero, Layout.otaRecordLength_eq]
  rfl

section Parts

variable {image : OtaImage} {front hash : Bytes} {block : SignatureBlock}
  (h : image.toBytes = front ++ hash ++ block.toBytes)

include h

theorem blockOctets_of_toBytes : image.blockOctets = block.toOctets := by
  apply Octets.ext
  rw [toBytes_blockOctets, h]
  exact drop_length_sub (SignatureBlock.length_toBytes _)

theorem block_of_toBytes : image.block = block := by
  rw [OtaImage.block, blockOctets_of_toBytes h, SignatureBlock.ofOctets_toOctets]

theorem body_of_toBytes (hhash : hash.length = 32) : image.body = front := by
  rw [body, h]
  exact take_length_sub hhash (SignatureBlock.length_toBytes _)

theorem toBytes_blockHash_of_toBytes (hhash : hash.length = 32) :
    image.blockHash.toBytes = hash := by
  rw [toBytes_blockHash, h]
  exact segment_length_sub hhash (SignatureBlock.length_toBytes _)

end Parts

theorem ofBytes_toBytes (image : OtaImage) : ofBytes image.toBytes = .ok image := by
  rw [ofBytes, dif_pos ⟨image.length_mod, image.le_length⟩]

theorem verify_of_blockHash_ne (image : OtaImage) (trusted : KeyRecord)
    (h : Sha256.digest image.blockOctets.toBytes ≠ image.blockHash) :
    verify image.toBytes trusted = .error ⟨some .otaImage, .blockHash⟩ := by
  rw [verify, ofBytes_toBytes, ok_bind, verifyBlock, if_pos h]
  rfl

theorem verify_toBytes (image : OtaImage) (trusted : KeyRecord)
    (h : Sha256.digest image.blockOctets.toBytes = image.blockHash) :
    verify image.toBytes trusted =
      (image.block.authenticate image.body trusted).mapError (Fault.on .otaImage) := by
  have hblock : image.verifyBlock trusted = image.block.authenticate image.body trusted := by
    rw [verifyBlock, if_neg (not_not_intro h)]
    rfl
  rw [verify, ofBytes_toBytes, ok_bind, hblock]

theorem verify_eq_outcome (image : OtaImage) (trusted : KeyRecord)
    (h : Sha256.digest image.blockOctets.toBytes = image.blockHash) :
    verify image.toBytes trusted =
      outcome (blockFaults .otaImage image.blockOctets.toBytes image.body trusted) image.block := by
  rw [verify_toBytes image trusted h, block, SignatureBlock.mapError_authenticate]

theorem verify_of_length {image : Bytes} (trusted : KeyRecord)
    (h : ¬(image.length % 4096 = 1248 ∧ 4096 ≤ image.length)) :
    verify image trusted = .error ⟨some .otaImage, .imageLength image.length 1248⟩ := by
  have hlen : ¬(image.length % Layout.sectorLength = Layout.otaRecordLength ∧
      Layout.sectorLength ≤ image.length) := h
  rw [verify, ofBytes, dif_neg hlen]
  rfl

theorem exists_toBytes_eq {image : Bytes} (h : image.length % 4096 = 1248 ∧ 4096 ≤ image.length) :
    ∃ ota : OtaImage, ota.toBytes = image :=
  ⟨⟨image, h.1, h.2⟩, rfl⟩

/-- Any block can stand behind whole sectors, at least one, with its hash in front of it. -/
theorem exists_framed {front : Bytes} (hfront : front.length % 4096 = 0 ∧ front.length ≠ 0)
    (block : SignatureBlock) :
    ∃ image : OtaImage,
      image.toBytes = front ++ (Sha256.digest block.toBytes).toBytes ++ block.toBytes ∧
      image.body = front ∧ image.block = block ∧
      Sha256.digest image.blockOctets.toBytes = image.blockHash := by
  have hdata : block.toBytes.length = 1216 := block.length_toBytes
  have hhash : (Sha256.digest block.toBytes).toBytes.length = 32 := Octets.length_toBytes _
  have hlen : (front ++ (Sha256.digest block.toBytes).toBytes ++ block.toBytes).length % 4096 =
      1248 ∧ 4096 ≤ (front ++ (Sha256.digest block.toBytes).toBytes ++ block.toBytes).length := by
    simp only [List.length_append, hdata, hhash]
    omega
  rcases exists_toBytes_eq hlen with ⟨image, hbytes⟩
  refine ⟨image, hbytes, body_of_toBytes hbytes hhash, block_of_toBytes hbytes, ?_⟩
  apply Octets.ext
  rw [toBytes_blockHash_of_toBytes hbytes hhash, blockOctets_of_toBytes hbytes]
  rfl

theorem verify_framed {front : Bytes} (hfront : front.length % 4096 = 0 ∧ front.length ≠ 0)
    (block : SignatureBlock) (trusted : KeyRecord) :
    verify (front ++ (Sha256.digest block.toBytes).toBytes ++ block.toBytes) trusted =
      (block.authenticate front trusted).mapError (Fault.on .otaImage) := by
  rcases exists_framed hfront block with ⟨image, hbytes, hbody, hblock, hhash⟩
  rw [← hbytes, verify_toBytes image trusted hhash, hblock, hbody]

/-- The hash in front of the block is compared octet by octet. -/
theorem digest_eq_blockHash_iff (image : OtaImage) :
    Sha256.digest image.blockOctets.toBytes = image.blockHash ↔
      segment image.toBytes (image.toBytes.length - 1248) 32 =
        (Sha256.digest (image.toBytes.drop (image.toBytes.length - 1216))).toBytes := by
  rw [← toBytes_blockOctets, ← toBytes_blockHash]
  constructor
  · intro h
    rw [h]
  · intro h
    exact Octets.ext h.symm

theorem verify_eq_ok_iff {image : Bytes} {trusted : KeyRecord} {block : SignatureBlock} :
    verify image trusted = .ok block ↔
      Genuine image trusted ∧ block.toBytes = image.drop (image.length - 1216) := by
  by_cases h : image.length % 4096 = 1248 ∧ 4096 ≤ image.length
  · rcases exists_toBytes_eq h with ⟨ota, rfl⟩
    -- The hash of the block decides before the block is looked at.
    by_cases hhash : Sha256.digest ota.blockOctets.toBytes = ota.blockHash
    · rw [verify_eq_outcome ota trusted hhash, OtaImage.block,
        SignatureBlock.outcome_blockFaults_eq_ok_iff, toBytes_blockOctets, body,
        Layout.otaRecordLength_eq]
      constructor
      · rintro ⟨hauthentic, hbytes⟩
        exact ⟨⟨h.1, h.2, (digest_eq_blockHash_iff ota).1 hhash, hauthentic⟩, hbytes⟩
      · rintro ⟨hgenuine, hbytes⟩
        exact ⟨hgenuine.authentic, hbytes⟩
    · rw [verify_of_blockHash_ne ota trusted hhash]
      constructor
      · intro herror
        cases herror
      · rintro ⟨hgenuine, -⟩
        exact absurd ((digest_eq_blockHash_iff ota).2 hgenuine.block_hash) hhash
  · rw [verify_of_length trusted h]
    constructor
    · intro herror
      cases herror
    · rintro ⟨hgenuine, -⟩
      exact absurd ⟨hgenuine.length_mod, hgenuine.le_length⟩ h

theorem verify_eq_error_iff {image : Bytes} {trusted : KeyRecord} {fault : Fault Empty} :
    verify image trusted = .error fault ↔ firstFault (faults image trusted) = some fault := by
  by_cases h : image.length % 4096 = 1248 ∧ 4096 ≤ image.length
  · rcases exists_toBytes_eq h with ⟨ota, rfl⟩
    have hiff := digest_eq_blockHash_iff ota
    by_cases hhash : Sha256.digest ota.blockOctets.toBytes = ota.blockHash
    · rw [verify_eq_outcome ota trusted hhash, outcome_eq_error_iff, faults, faultUnless,
        if_pos h, firstFault_none_cons, faultUnless, if_pos (hiff.1 hhash), firstFault_none_cons,
        toBytes_blockOctets, body, Layout.otaRecordLength_eq]
    · rw [verify_of_blockHash_ne ota trusted hhash, faults, faultUnless, if_pos h,
        firstFault_none_cons, faultUnless, if_neg (fun hsegment => hhash (hiff.2 hsegment)),
        Except.error.injEq, ← Option.some.injEq]
      rfl
  · rw [verify_of_length trusted h, faults, faultUnless, if_neg h, Except.error.injEq,
      ← Option.some.injEq]
    rfl

/-- What stands before the record of a string of the right length is a string of sectors, at least
one. -/
theorem take_length_mod {image : Bytes} (hmod : image.length % 4096 = 1248)
    (hle : 4096 ≤ image.length) :
    (image.take (image.length - 1248)).length % 4096 = 0 ∧
      (image.take (image.length - 1248)).length ≠ 0 := by
  have hlen : (image.take (image.length - 1248)).length = image.length - 1248 :=
    List.length_take_of_le (Nat.sub_le _ _)
  omega

/-- Verification accepts exactly the genuine images and gives back the block at the end; of any
other image it reports the first fault, which is never one of the length of a block.  What is signed
in an accepted image has the length of a boot-signed image, and the image itself has not. -/
theorem verify_decides_ota (image : Bytes) (trusted : KeyRecord) :
    (∀ block, verify image trusted = .ok block ↔
      Genuine image trusted ∧ block.toBytes = image.drop (image.length - 1216)) ∧
    (∀ fault, verify image trusted = .error fault ↔
      firstFault (faults image trusted) = some fault) ∧
    (∀ artifact length, verify image trusted ≠ .error ⟨artifact, .blockLength length⟩) ∧
    ∀ block, verify image trusted = .ok block →
      image.take (image.length - 1248) ≠ [] ∧
      (∃ boot, BootImage.ofBytes (image.take (image.length - 1248)) = .ok boot) ∧
      ∀ other accepted, BootImage.verify image other ≠ .ok accepted := by
  refine ⟨fun _ => verify_eq_ok_iff, fun _ => verify_eq_error_iff, ?_, ?_⟩
  · intro artifact length hverify
    have hmem := mem_of_firstFault (verify_eq_error_iff.1 hverify)
    rcases List.mem_cons.1 hmem with hlength | hmem
    · cases eq_of_faultUnless hlength.symm
    rcases List.mem_cons.1 hmem with hhash | hblock
    · cases eq_of_faultUnless hhash.symm
    · exact blockLength_not_mem_blockFaults artifact length hblock
  · intro block hverify
    -- Only lengths matter for what an accepted image can be.
    have hgenuine := (verify_eq_ok_iff.1 hverify).1
    have hbody := take_length_mod hgenuine.length_mod hgenuine.le_length
    refine ⟨?_, ?_, ?_⟩
    · intro hnil
      exact hbody.2 (congrArg List.length hnil)
    · rcases BootImage.exists_toBytes_eq hbody with ⟨boot, hboot⟩
      exact ⟨boot, hboot ▸ BootImage.ofBytes_toBytes boot⟩
    · intro other accepted hboot
      have hsectors := (BootImage.verify_eq_ok_iff.1 hboot).1.whole_sectors
      have hrecord := hgenuine.length_mod
      omega

end OtaImage

end SecureBoot
