import SecureBoot.KeyFile.EncryptedKey
import SecureBoot.Proofs.Cbc
import SecureBoot.Proofs.PrivateKey

/-!
# EncryptedKey — envelopes that were written are read back

Every envelope whose numbers are in range is read back (`EncryptedKey.Envelope.ofBytes?_encode`),
whichever way its key is derived and whichever size it has.  What was encrypted under a password is
decrypted under it (`EncryptedKey.Envelope.decrypt?_encrypt`).  So an RSA key comes back from the
envelope that was made for it (`EncryptedKey.Envelope.rsaKey?_ofSalt`).
-/

namespace SecureBoot

open Der

/-! ## Algorithms -/

namespace Der.Algorithm

variable {algorithm : Algorithm}

/-- An algorithm whose name and parameters can be read. -/
structure Readable (algorithm : Algorithm) : Prop where
  name_eq : Der.objectIdentifier? algorithm.name = some algorithm.name
  parameters : ∀ e ∈ algorithm.parameters, e.Readable

theorem Readable.length_name_le (h : algorithm.Readable) : algorithm.name.length ≤ 39 := by
  have hname := h.name_eq
  simp only [Der.objectIdentifier?] at hname
  split at hname
  · split at hname
    · next hlength => exact hlength.2.1
    · cases hname
  · cases hname

theorem Readable.members (h : algorithm.Readable) :
    ∀ e ∈ ⟨Tag.objectIdentifier, algorithm.name⟩ :: algorithm.parameters.toList, e.Readable := by
  refine List.forall_mem_cons.2
    ⟨⟨(by decide : Tag.isValid Tag.objectIdentifier = true), ?_⟩, ?_⟩
  · exact Nat.le_trans h.length_name_le (by decide)
  · intro e he
    exact h.parameters e (Option.mem_toList.1 he)

theorem Readable.ofElement?_toElement (h : algorithm.Readable) :
    ofElement? algorithm.toElement = some algorithm := by
  have hmembers := members?_construct Tag.sequence h.members
  rcases algorithm with ⟨name, parameters⟩
  have hname := h.name_eq
  cases parameters <;>
    simp_all [ofElement?, toElement, Element.objectIdentifier?, Element.content?]

theorem Readable.length_toElement_le (h : algorithm.Readable) {n : Nat}
    (hparameters : ∀ e ∈ algorithm.parameters, e.content.length ≤ n) :
    algorithm.toElement.content.length ≤ n + 51 := by
  have hname := h.length_name_le
  have hfirst := length_encode_le ⟨Tag.objectIdentifier, algorithm.name⟩
  rcases algorithm with ⟨name, parameters⟩
  cases parameters with
  | none =>
      simp only [toElement, construct, Option.toList_none, List.flatMap_cons, List.flatMap_nil,
        List.length_append, List.length_nil] at hname hfirst ⊢
      omega
  | some e =>
      have hsecond := length_encode_le e
      have hcontent := hparameters e rfl
      simp only [toElement, construct, Option.toList_some, List.flatMap_cons, List.flatMap_nil,
        List.length_append, List.length_nil] at hname hfirst ⊢
      omega

end Der.Algorithm

namespace EncryptedKey

/-! ## What can be written -/

/-- Whether the numbers of a method are in the ranges that a reader admits. -/
def Method.InRange : Method → Prop
  | pbkdf2 iterations _ => iterations < UInt32.size
  | scrypt parameters => parameters.isValid = true ∧ parameters.blockSize < UInt16.size ∧
      parameters.parallelization < UInt16.size

structure Derivation.Writable (derivation : Derivation) : Prop where
  method : derivation.method.InRange
  keyLength_lt : ∀ length ∈ derivation.keyLength, length < UInt16.size
  salt_le : derivation.salt.length ≤ 2 ^ 20

structure Envelope.Writable (envelope : Envelope) : Prop where
  derivation : envelope.derivation.Writable
  data_le : envelope.data.length ≤ 2 ^ 27

/-! ## Derivations -/

theorem hash?_toElement (hash : Sha2) :
    hash? (Algorithm.toElement ⟨hmacName hash, some Element.null⟩) = some hash := by
  cases hash <;> decide +kernel

/-- The length of a key is taken off, whether or not it is named. -/
theorem takeKeyLength?_append {keyLength : Option Nat}
    (h : ∀ length ∈ keyLength, length < UInt16.size) (rest : List Element)
    (hrest : ∀ e ∈ rest.head?, e.tag ≠ Tag.integer) :
    takeKeyLength? (keyLength.toList.map Element.ofUint ++ rest) = some (keyLength, rest) := by
  cases keyLength with
  | some length =>
      have htag : (Element.ofUint length).tag = Tag.integer := rfl
      simp [takeKeyLength?, htag, uint?_ofUint, h length rfl]
  | none =>
      cases rest with
      | nil => rfl
      | cons e rest => simp [takeKeyLength?, hrest e rfl]

theorem Method.InRange.bitLength_le {method : Method} (h : method.InRange) :
    ∀ n ∈ method.numbers, bitLength n ≤ 64 := by
  cases method with
  | pbkdf2 iterations hash =>
      have hlt : iterations < 2 ^ 64 := Nat.lt_trans h (by decide)
      exact List.forall_mem_singleton.2 (bitLength_le_iff.2 hlt)
  | scrypt parameters =>
      rcases parameters with ⟨cost, blockSize, parallelization⟩
      rcases h with ⟨hvalid, hblock, hparallel⟩
      simp only [Scrypt.Parameters.isValid, decide_eq_true_eq] at hvalid
      rcases hvalid with ⟨-, -, hlog, hmemory, -⟩
      have hcost : cost ≤ 128 * blockSize * cost := Nat.le_mul_of_pos_left _ (by omega)
      simp only [numbers, List.forall_mem_cons]
      exact ⟨bitLength_le_iff.2 (Nat.lt_of_le_of_lt hcost hmemory),
        bitLength_le_iff.2 (Nat.lt_trans hblock (by decide)),
        bitLength_le_iff.2 (Nat.lt_trans hparallel (by decide)), List.forall_mem_nil _⟩

namespace Derivation

variable {derivation : Derivation}

theorem Writable.numbers_le (h : derivation.Writable) :
    ∀ n ∈ derivation.method.numbers ++ derivation.keyLength.toList, bitLength n ≤ 4096 := by
  refine List.forall_mem_append.2 ⟨?_, ?_⟩
  · exact fun n hn => Nat.le_trans (h.method.bitLength_le n hn) (by decide)
  · intro n hn
    have hlt := h.keyLength_lt n (Option.mem_toList.1 hn)
    exact Nat.le_trans (bitLength_le_iff.2 hlt : bitLength n ≤ 16) (by decide)

theorem length_numbers_le (method : Method) : method.numbers.length ≤ 3 := by
  cases method <;> simp [Method.numbers]

theorem Writable.members (h : derivation.Writable) :
    (∀ e ∈ derivation.members, e.Readable) ∧
      (derivation.members.flatMap Element.encode).length ≤ 2 ^ 21 := by
  rcases readable_numbers h.numbers_le with ⟨hnumbers, hlength⟩
  have hsalt := h.salt_le
  have hmax : maxLength = 268435455 := rfl
  have hfirst := length_encode_le ⟨Tag.octetString, derivation.salt⟩
  have hcount := length_numbers_le derivation.method
  have hhash : ∀ hash, (Algorithm.toElement ⟨hmacName hash, some Element.null⟩).Readable ∧
      (Algorithm.toElement ⟨hmacName hash, some Element.null⟩).encode.length = 14 := by
    intro hash
    cases hash <;> exact ⟨⟨by decide, by decide⟩, by decide⟩
  constructor
  · refine List.forall_mem_cons.2 ⟨⟨(by decide : Tag.isValid Tag.octetString = true), ?_⟩,
      List.forall_mem_append.2 ⟨hnumbers, ?_⟩⟩
    · dsimp only
      omega
    · intro e he
      rcases List.mem_map.1 he with ⟨hash, -, rfl⟩
      exact (hhash hash).1
  · have hlast : ((derivation.method.hash?.toList.map fun hash =>
        Algorithm.toElement ⟨hmacName hash, some Element.null⟩).flatMap
          Element.encode).length ≤ 14 := by
      cases derivation.method.hash? with
      | none => exact Nat.zero_le 14
      | some hash => simp [(hhash hash).2]
    have hkeyLength : derivation.keyLength.toList.length ≤ 1 := by
      cases derivation.keyLength <;> simp
    simp only [Derivation.members, List.flatMap_cons, List.flatMap_append, List.length_append]
      at hlength hlast ⊢
    dsimp only at hfirst
    omega

theorem ofPbkdf2?_members {iterations : Nat} {hash : Sha2} {salt : Bytes} {keyLength : Option Nat}
    (h : Writable ⟨.pbkdf2 iterations hash, salt, keyLength⟩) :
    ofPbkdf2? (construct Tag.sequence (members ⟨.pbkdf2 iterations hash, salt, keyLength⟩)) =
      some ⟨.pbkdf2 iterations hash, salt, keyLength⟩ := by
  let last := Algorithm.toElement ⟨hmacName hash, some Element.null⟩
  have hlast : last.tag ≠ Tag.integer := (by decide : Tag.sequence ≠ Tag.integer)
  have htail := takeKeyLength?_append h.keyLength_lt [last] (by rintro e ⟨⟩; exact hlast)
  have hmembers : (construct Tag.sequence
      (members ⟨.pbkdf2 iterations hash, salt, keyLength⟩)).members? Tag.sequence =
        some (⟨Tag.octetString, salt⟩ :: Element.ofUint iterations ::
          (keyLength.toList.map Element.ofUint ++ [last])) :=
    members?_construct Tag.sequence h.members.1
  have hhash : hash? last = some hash := hash?_toElement hash
  simp only [ofPbkdf2?, hmembers, bind, Option.bind_some, Element.content?, uint?_ofUint, htail,
    hhash, if_true]
  exact if_pos h.method

theorem ofScrypt?_members {parameters : Scrypt.Parameters} {salt : Bytes} {keyLength : Option Nat}
    (h : Writable ⟨.scrypt parameters, salt, keyLength⟩) :
    ofScrypt? (construct Tag.sequence (members ⟨.scrypt parameters, salt, keyLength⟩)) =
      some ⟨.scrypt parameters, salt, keyLength⟩ := by
  rcases parameters with ⟨cost, blockSize, parallelization⟩
  have htail := takeKeyLength?_append h.keyLength_lt [] nofun
  have hmembers : (construct Tag.sequence
      (members ⟨.scrypt ⟨cost, blockSize, parallelization⟩, salt, keyLength⟩)).members?
        Tag.sequence =
        some (⟨Tag.octetString, salt⟩ :: Element.ofUint cost :: Element.ofUint blockSize ::
          Element.ofUint parallelization :: (keyLength.toList.map Element.ofUint ++ [])) :=
    members?_construct Tag.sequence h.members.1
  simp only [ofScrypt?, hmembers, bind, Option.bind_some, Element.content?, uint?_ofUint, htail,
    if_true]
  exact if_pos h.method

/-- A derivation that was written is read back. -/
theorem ofAlgorithm?_toAlgorithm (h : derivation.Writable) :
    ofAlgorithm? derivation.toAlgorithm = some derivation := by
  rcases derivation with ⟨method, salt, keyLength⟩
  cases method with
  | pbkdf2 iterations hash => exact (if_pos rfl).trans (ofPbkdf2?_members h)
  | scrypt parameters =>
      have hother : scryptName ≠ pbkdf2Name := by
        decide
      exact (if_neg hother).trans ((if_pos rfl).trans (ofScrypt?_members h))

theorem readable_toAlgorithm (h : derivation.Writable) : derivation.toAlgorithm.Readable where
  name_eq := by
    cases hmethod : derivation.method <;> simp only [toAlgorithm, Method.name, hmethod] <;> decide
  parameters := by
    rintro e ⟨⟩
    exact readable_construct (Nat.le_trans h.members.2 (by decide))

theorem length_toAlgorithm_le (h : derivation.Writable) :
    derivation.toAlgorithm.toElement.content.length ≤ 2 ^ 22 := by
  refine ((readable_toAlgorithm h).length_toElement_le (n := 2 ^ 21) ?_).trans (by decide)
  rintro e ⟨⟩
  exact h.members.2

end Derivation

/-! ## Encryptions -/

namespace Encryption

theorem readable_toAlgorithm (encryption : Encryption) : encryption.toAlgorithm.Readable where
  name_eq := by
    have hname : ∀ size, objectIdentifier? (cipherName size) = some (cipherName size) := by
      intro size
      cases size <;> decide
    exact hname encryption.size
  parameters := by
    rintro e ⟨⟩
    refine ⟨(by decide : Tag.isValid Tag.octetString = true), ?_⟩
    exact Nat.le_trans (Nat.le_of_eq encryption.start.length_toBytes) (by decide)

theorem ofAlgorithm?_toAlgorithm (encryption : Encryption) :
    ofAlgorithm? encryption.toAlgorithm = some encryption := by
  rcases encryption with ⟨size, start⟩
  have hsize : (keySizes.find? fun other => cipherName other = cipherName size) = some size := by
    cases size <;> decide
  have hstart : Octets.ofBytes? Cbc.blockLength start.toBytes = some start :=
    dif_pos start.length_toBytes
  have hread : ofAlgorithm? (toAlgorithm ⟨size, start⟩) =
      (keySizes.find? fun other => cipherName other = cipherName size).bind fun size =>
        (Octets.ofBytes? Cbc.blockLength start.toBytes).bind fun start => some ⟨size, start⟩ := rfl
  rw [hread, hsize, hstart]
  rfl

theorem length_toAlgorithm_le (encryption : Encryption) :
    encryption.toAlgorithm.toElement.content.length ≤ 67 := by
  refine (readable_toAlgorithm encryption).length_toElement_le (n := 16) ?_
  rintro e ⟨⟩
  exact Nat.le_of_eq encryption.start.length_toBytes

end Encryption

/-! ## Envelopes -/

namespace Envelope

variable {envelope : Envelope}

theorem Writable.schemeMembers (h : envelope.Writable) :
    (∀ e ∈ [envelope.derivation.toAlgorithm.toElement, envelope.encryption.toAlgorithm.toElement],
      e.Readable) ∧
    ([envelope.derivation.toAlgorithm.toElement,
      envelope.encryption.toAlgorithm.toElement].flatMap Element.encode).length ≤ 2 ^ 23 := by
  have hderivation := Derivation.length_toAlgorithm_le h.derivation
  have hencryption := envelope.encryption.length_toAlgorithm_le
  have hmax : maxLength = 268435455 := rfl
  constructor
  · refine List.forall_mem_cons.2 ⟨⟨(by decide : Tag.isValid Tag.sequence = true), by omega⟩,
      List.forall_mem_singleton.2 ⟨(by decide : Tag.isValid Tag.sequence = true), by omega⟩⟩
  · have hfirst := length_encode_le envelope.derivation.toAlgorithm.toElement
    have hsecond := length_encode_le envelope.encryption.toAlgorithm.toElement
    simp only [List.flatMap_cons, List.flatMap_nil, List.length_append, List.length_nil]
    omega

theorem readable_scheme (h : envelope.Writable) : envelope.scheme.Readable where
  name_eq := (by decide : objectIdentifier? pbes2Name = some pbes2Name)
  parameters := by
    rintro e ⟨⟩
    exact readable_construct (Nat.le_trans h.schemeMembers.2 (by decide))

theorem ofScheme?_scheme (h : envelope.Writable) :
    ofScheme? envelope.scheme envelope.data = some envelope := by
  have hmembers := members?_construct Tag.sequence h.schemeMembers.1
  simp only [ofScheme?, scheme, hmembers, bind, Option.bind_some, if_true,
    Algorithm.Readable.ofElement?_toElement (Derivation.readable_toAlgorithm h.derivation),
    Algorithm.Readable.ofElement?_toElement envelope.encryption.readable_toAlgorithm,
    Derivation.ofAlgorithm?_toAlgorithm h.derivation,
    Encryption.ofAlgorithm?_toAlgorithm]
  rfl

/-- An envelope that was written is read back. -/
theorem ofBytes?_encode (h : envelope.Writable) :
    ofBytes? envelope.toElement.encode = some envelope := by
  have hscheme : envelope.scheme.toElement.content.length ≤ 2 ^ 24 := by
    refine ((readable_scheme h).length_toElement_le (n := 2 ^ 23) ?_).trans (by decide)
    rintro e ⟨⟩
    exact h.schemeMembers.2
  have hdata := h.data_le
  have hmax : maxLength = 268435455 := rfl
  let members := [envelope.scheme.toElement, ⟨Tag.octetString, envelope.data⟩]
  have hmembers : ∀ e ∈ members, e.Readable := by
    refine List.forall_mem_cons.2 ⟨⟨(by decide : Tag.isValid Tag.sequence = true), by omega⟩,
      List.forall_mem_singleton.2 ⟨(by decide : Tag.isValid Tag.octetString = true), ?_⟩⟩
    dsimp only
    omega
  have hlength : (members.flatMap Element.encode).length ≤ maxLength := by
    have hfirst := length_encode_le envelope.scheme.toElement
    have hsecond := length_encode_le ⟨Tag.octetString, envelope.data⟩
    simp only [members, List.flatMap_cons, List.flatMap_nil, List.length_append, List.length_nil]
    dsimp only at hsecond
    omega
  have hread := members?_construct Tag.sequence hmembers
  simp only [ofBytes?, toElement, element?_encode (readable_construct hlength), hread, members,
    bind, Option.bind_some, Algorithm.Readable.ofElement?_toElement (readable_scheme h),
    Element.content?, if_true]
  exact ofScheme?_scheme h

/-- What was encrypted under a password is decrypted under it. -/
theorem decrypt?_encrypt {derivation : Derivation} {encryption : Encryption}
    (h : ∀ length ∈ derivation.keyLength, length = encryption.size.length)
    (password data : Bytes) :
    (encrypt derivation encryption password data).decrypt? password = some data := by
  have hlength : derivation.keyLength.all (· = encryption.size.length) = true := by
    simpa [Option.all_eq_true] using h
  rw [encrypt, decrypt?]
  exact (if_pos hlength).trans (Cbc.decrypt?_encrypt _ _ _ data)

theorem length_data_encrypt_le (derivation : Derivation) (encryption : Encryption)
    (password data : Bytes) :
    (encrypt derivation encryption password data).data.length ≤ data.length + 16 :=
  Cbc.length_encrypt_le _ _ _ data

/-- The envelope that is made for a key can be written. -/
theorem writable_ofSalt (salt : Octets 32) (password : Bytes) {data : Bytes}
    (h : data.length ≤ 6000) : (ofSalt salt password data).Writable where
  derivation := {
    method := by
      refine ⟨?_, ?_, ?_⟩ <;> decide
    keyLength_lt := nofun
    salt_le :=
      Nat.le_trans (Nat.le_of_eq (salt.slice 0 16 (by decide)).length_toBytes) (by decide) }
  data_le := by
    have hlength := length_data_encrypt_le (.ofSalt (salt.slice 0 16 (by decide)).toBytes)
      ⟨.bits256, salt.slice 16 Cbc.blockLength (by decide)⟩ password data
    exact hlength.trans (Nat.le_trans (Nat.add_le_add_right h 16) (by decide))

/-- A key in the envelope that was made for it comes back under its password. -/
theorem rsaKey?_ofSalt {key : Rsa.PrivateKey} {data : Bytes} (h : data.length ≤ 6000)
    (hkey : PrivateKeyInfo.rsaKey? data = some key) (salt : Octets 32) (password : Bytes) :
    (ofBytes? (ofSalt salt password data).toElement.encode).bind (·.rsaKey? password) =
      some key := by
  have hdecrypted : (ofSalt salt password data).decrypt? password = some data :=
    decrypt?_encrypt (by rintro length ⟨⟩) password data
  rw [ofBytes?_encode (writable_ofSalt salt password h), Option.bind_some, rsaKey?, hdecrypted]
  exact hkey

end Envelope

end EncryptedKey

end SecureBoot
