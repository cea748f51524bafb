import SecureBoot.KeyFile.Certificate
import SecureBoot.KeyRecord
import SecureBoot.Pem.Armour
import SecureBoot.Text.Blank
import SecureBoot.Text.Utf8

/-!
# Files that hold a trusted key

A trusted key comes as a public key or as a certificate, each in binary form or as PEM text.

* `KeyFormat.detect` tells from the content which form a file has.
* `KeyFormat.rsaKey` reads the key of a file in a known form.
* `KeyRecord.load` makes the key record of it.
-/

namespace SecureBoot

inductive KeyFormat where
  | pemPublicKey
  | pemRsaPublicKey
  | pemCertificate
  | derPublicKey
  | derCertificate
  deriving DecidableEq, Repr

namespace KeyFormat

def publicKeyLabel : String := "PUBLIC KEY"

/-- The label of a key in the PKCS#1 format. -/
def rsaPublicKeyLabel : String := "RSA PUBLIC KEY"

def certificateLabel : String := "CERTIFICATE"

/-- Whether a text contains another one. -/
def containsText (wanted : List Char) : List Char → Bool
  | [] => wanted.isEmpty
  | c :: text => wanted.isPrefixOf (c :: text) || containsText wanted text

/-- The first boundary of a PEM text with a label. -/
def openingLine (label : String) : List Char :=
  "-----BEGIN ".toList ++ label.toList ++ "-----".toList

/-- The form that a file seems to have.  A text that starts, after blanks, like PEM is told apart by
the labels that it contains; anything else is taken for a certificate. -/
def detect (data : Bytes) : KeyFormat :=
  match Utf8.decode? data with
  | none => derCertificate
  | some text =>
    -- The labels may stand anywhere in the text.
    if "-----BEGIN ".toList.isPrefixOf (trimStart text) then
      if containsText (openingLine certificateLabel) text then pemCertificate
      else if containsText (openingLine rsaPublicKeyLabel) text then pemRsaPublicKey
      else pemPublicKey
    else derCertificate

/-- The key of a file that holds an info. -/
def rsaKeyOf (info : Option PublicKeyInfo) : Except KeyFault Rsa.PublicKey :=
  match info with
  | some info => info.rsaKey
  | none => .error .decode

def rsaKey (format : KeyFormat) (data : Bytes) : Except KeyFault Rsa.PublicKey :=
  match format with
  | pemPublicKey => rsaKeyOf ((Pem.decode? publicKeyLabel data).bind PublicKeyInfo.ofBytes?)
  | pemRsaPublicKey =>
    match (Pem.decode? rsaPublicKeyLabel data).bind Rsa.PublicKey.ofPkcs1? with
    | some key => .ok key
    | none => .error .decodePkcs1
  | pemCertificate => rsaKeyOf ((Pem.decode? certificateLabel data).bind Certificate.ofFront?)
  | derPublicKey => rsaKeyOf (PublicKeyInfo.ofBytes? data)
  | derCertificate => rsaKeyOf (Certificate.ofBytes? data)

end KeyFormat

def KeyRecord.load (format : KeyFormat) (data : Bytes) : Checked KeyRecord :=
  ((format.rsaKey data).mapError Fault.ofKey).bind KeyRecord.create

end SecureBoot
