import SecureBoot.Cipher.Cbc
import SecureBoot.Hash.Scrypt
import SecureBoot.KeyFile.PrivateKeyInfo

/-!
# Private keys under a password

A private key in the PKCS#8 format, encrypted with a key that is derived from a password: PBES2 of
RFC 8018.  The key is derived by PBKDF2, with one of the hash functions of the SHA-2 family, or by
scrypt; the cipher is AES in cipher block chaining mode, with any size of key.

* `EncryptedKey.Envelope.ofBytes?` reads such an envelope and `EncryptedKey.Envelope.toElement`
  writes one.
* `EncryptedKey.Envelope.encrypt` makes an envelope for a string, and
  `EncryptedKey.Envelope.decrypt?` gives back the string.
-/

namespace SecureBoot.EncryptedKey

open Der

/-! ## Names -/

/-- Encryption with a derived key: 1.2.840.113549.1.5.13. -/
def pbes2Name : ObjectIdentifier := [0x2a, 0x86, 0x48, 0x86, 0xf7, 0x0d, 0x01, 0x05, 0x0d]

/-- Derivation from a password: 1.2.840.113549.1.5.12. -/
def pbkdf2Name : ObjectIdentifier := [0x2a, 0x86, 0x48, 0x86, 0xf7, 0x0d, 0x01, 0x05, 0x0c]

/-- Derivation that takes much memory: 1.3.6.1.4.1.11591.4.11. -/
def scryptName : ObjectIdentifier := [0x2b, 0x06, 0x01, 0x04, 0x01, 0xda, 0x47, 0x04, 0x0b]

/-- HMAC with a hash function: 1.2.840.113549.2.8 and the numbers behind it. -/
def hmacName (hash : Sha2) : ObjectIdentifier :=
  let number : UInt8 :=
    match hash with
    | .sha224 => 0x08
    | .sha256 => 0x09
    | .sha384 => 0x0a
    | .sha512 => 0x0b
  [0x2a, 0x86, 0x48, 0x86, 0xf7, 0x0d, 0x02, number]

/-- AES in cipher block chaining mode: 2.16.840.1.101.3.4.1 and a number for each size. -/
def cipherName (size : Aes.KeySize) : ObjectIdentifier :=
  let number : UInt8 :=
    match size with
    | .bits128 => 0x02
    | .bits192 => 0x16
    | .bits256 => 0x2a
  [0x60, 0x86, 0x48, 0x01, 0x65, 0x03, 0x04, 0x01, number]

def hashes : List Sha2 := [.sha224, .sha256, .sha384, .sha512]

def keySizes : List Aes.KeySize := [.bits128, .bits192, .bits256]

/-! ## Envelopes -/

/-- How a key is derived from a password. -/
inductive Method where
  | pbkdf2 (iterations : Nat) (hash : Sha2)
  | scrypt (parameters : Scrypt.Parameters)
  deriving DecidableEq, Repr

structure Derivation where
  method : Method
  salt : Bytes
  /-- The length of the key, where it is named. -/
  keyLength : Option Nat
  deriving DecidableEq, Repr

structure Encryption where
  size : Aes.KeySize
  start : Octets Cbc.blockLength
  deriving DecidableEq, Repr

structure Envelope where
  derivation : Derivation
  encryption : Encryption
  data : Bytes
  deriving DecidableEq, Repr

/-! ## Reading -/

/-- The length of a key if the members begin with one, and the members after it. -/
def takeKeyLength? : List Element → Option (Option Nat × List Element)
  | [] => some (none, [])
  | e :: rest =>
    if e.tag = Tag.integer then do
      let length ← e.uint?
      if length < UInt16.size then return (some length, rest) else none
    else some (none, e :: rest)

/-- The hash function of a keyed hash; the one that stands for none is not among them. -/
def hash? (e : Element) : Option Sha2 := do
  let algorithm ← Algorithm.ofElement? e
  if algorithm.parameters = some Element.null then
    hashes.find? fun hash => hmacName hash = algorithm.name
  else none

def Derivation.ofPbkdf2? (parameters : Element) : Option Derivation := do
  match ← parameters.members? Tag.sequence with
  | salt :: iterations :: tail =>
    let salt ← salt.content? Tag.octetString
    let iterations ← iterations.uint?
    match ← takeKeyLength? tail with
    | (keyLength, [hash]) =>
      if iterations < UInt32.size then
        return ⟨.pbkdf2 iterations (← hash? hash), salt, keyLength⟩
      else none
    | _ => none
  | _ => none

def Derivation.ofScrypt? (parameters : Element) : Option Derivation := do
  match ← parameters.members? Tag.sequence with
  | salt :: cost :: blockSize :: parallelization :: tail =>
    let salt ← salt.content? Tag.octetString
    let parameters : Scrypt.Parameters :=
      ⟨← cost.uint?, ← blockSize.uint?, ← parallelization.uint?⟩
    match ← takeKeyLength? tail with
    | (keyLength, []) =>
      if parameters.isValid ∧ parameters.blockSize < UInt16.size ∧
          parameters.parallelization < UInt16.size then
        return ⟨.scrypt parameters, salt, keyLength⟩
      else none
    | _ => none
  | _ => none

def Derivation.ofAlgorithm? (algorithm : Algorithm) : Option Derivation := do
  if algorithm.name = pbkdf2Name then ofPbkdf2? (← algorithm.parameters)
  else if algorithm.name = scryptName then ofScrypt? (← algorithm.parameters)
  else none

def Encryption.ofAlgorithm? (algorithm : Algorithm) : Option Encryption := do
  let size ← keySizes.find? fun size => cipherName size = algorithm.name
  let start ← (← algorithm.parameters).content? Tag.octetString
  return ⟨size, ← Octets.ofBytes? Cbc.blockLength start⟩

/-- The envelope for data that an encryption scheme has made. -/
def Envelope.ofScheme? (scheme : Algorithm) (data : Bytes) : Option Envelope := do
  match ← (← scheme.parameters).members? Tag.sequence with
  | [derivation, encryption] =>
    if scheme.name = pbes2Name then
      let derivation ← Derivation.ofAlgorithm? (← Algorithm.ofElement? derivation)
      let encryption ← Encryption.ofAlgorithm? (← Algorithm.ofElement? encryption)
      return ⟨derivation, encryption, data⟩
    else none
  | _ => none

def Envelope.ofBytes? (bytes : Bytes) : Option Envelope := do
  match ← (← element? bytes).members? Tag.sequence with
  | [scheme, data] => ofScheme? (← Algorithm.ofElement? scheme) (← data.content? Tag.octetString)
  | _ => none

/-! ## Writing -/

def Method.name : Method → ObjectIdentifier
  | pbkdf2 _ _ => pbkdf2Name
  | scrypt _ => scryptName

/-- What stands between the salt and the length of the key. -/
def Method.numbers : Method → List Nat
  | pbkdf2 iterations _ => [iterations]
  | scrypt ⟨cost, blockSize, parallelization⟩ => [cost, blockSize, parallelization]

def Method.hash? : Method → Option Sha2
  | pbkdf2 _ hash => some hash
  | scrypt _ => none

def Derivation.members (derivation : Derivation) : List Element :=
  ⟨Tag.octetString, derivation.salt⟩ ::
    ((derivation.method.numbers ++ derivation.keyLength.toList).map Element.ofUint ++
      derivation.method.hash?.toList.map fun hash =>
        Algorithm.toElement ⟨hmacName hash, some Element.null⟩)

def Derivation.toAlgorithm (derivation : Derivation) : Algorithm where
  name := derivation.method.name
  parameters := some (construct Tag.sequence derivation.members)

def Encryption.toAlgorithm (encryption : Encryption) : Algorithm where
  name := cipherName encryption.size
  parameters := some ⟨Tag.octetString, encryption.start.toBytes⟩

def Envelope.scheme (envelope : Envelope) : Algorithm where
  name := pbes2Name
  parameters := some <| construct Tag.sequence
    [envelope.derivation.toAlgorithm.toElement, envelope.encryption.toAlgorithm.toElement]

def Envelope.toElement (envelope : Envelope) : Element :=
  construct Tag.sequence [envelope.scheme.toElement, ⟨Tag.octetString, envelope.data⟩]

/-! ## Encryption -/

/-- The derivation of new keys: scrypt over a table of 128 MiB. -/
def Derivation.ofSalt (salt : Bytes) : Derivation where
  method := .scrypt ⟨1 <<< 17, 8, 1⟩
  salt := salt
  keyLength := none

/-- The key of a given length that a password stands for. -/
def Derivation.key (derivation : Derivation) (password : Bytes) (length : Nat) : Octets length :=
  match derivation.method with
  | .pbkdf2 iterations hash => Pbkdf2.deriveKey hash password derivation.salt iterations length
  | .scrypt parameters => Scrypt.deriveKey parameters password derivation.salt length

namespace Envelope

/-- An envelope with a string in it, under a password. -/
def encrypt (derivation : Derivation) (encryption : Encryption) (password data : Bytes) :
    Envelope :=
  let ⟨size, start⟩ := encryption
  ⟨derivation, encryption, Cbc.encrypt size (derivation.key password size.length) start data⟩

/-- What is in an envelope, if the password is right.  A length of the key that is named must be the
one that the cipher takes. -/
def decrypt? (envelope : Envelope) (password : Bytes) : Option Bytes :=
  let ⟨derivation, ⟨size, start⟩, data⟩ := envelope
  if derivation.keyLength.all (· = size.length) then
    Cbc.decrypt? size (derivation.key password size.length) start data
  else none

/-- A string under a password: the first half of the salt is for the derivation of the key, and the
cipher starts with the other half. -/
def ofSalt (salt : Octets 32) (password data : Bytes) : Envelope :=
  encrypt (.ofSalt (salt.slice 0 16 (by decide)).toBytes)
    ⟨.bits256, salt.slice 16 Cbc.blockLength (by decide)⟩ password data

/-- The RSA key in an envelope, if the password is right. -/
def rsaKey? (envelope : Envelope) (password : Bytes) : Option Rsa.PrivateKey :=
  (envelope.decrypt? password).bind PrivateKeyInfo.rsaKey?

end Envelope

end SecureBoot.EncryptedKey
