import SecureBoot.Command.Arguments
import SecureBoot.Files.Host

/-!
# Commands

A `Command` is what the program is asked to do, with all that it needs to know.  An `Invocation`
is a command, or none, and how much of the log to show.

`Invocation.parse` reads the arguments of the program.  What the arguments have to say together,
such as which options exclude each other, is checked here; a `Command` has no fields that make no
sense.
-/

namespace SecureBoot

/-- Which of the two signatures of an image is meant. -/
inductive Stage where
  | boot
  | ota
  deriving DecidableEq, Repr

inductive KeyEncoding where
  | pem
  | der
  deriving DecidableEq, Repr

structure KeySource where
  path : String
  encoding : KeyEncoding
  password : Option String
  deriving DecidableEq, Repr

inductive SigningSource where
  /-- A private key signs; a certificate, if given, must be of the same key. -/
  | privateKey (key : KeySource) (certificate : Option String)
  /-- A file holds the signature, and a certificate the key that verifies it. -/
  | presigned (signature certificate : String)
  deriving DecidableEq, Repr

/-- The files of a simulated signing of a boot loader and a firmware. -/
structure Simulation where
  bootKey : String
  otaKey : String
  encoding : KeyEncoding
  bootCertificate : Option String
  otaCertificate : Option String
  bootloader : String
  firmware : String
  outputDirectory : String
  deriving DecidableEq, Repr

inductive Command where
  | generateKey (key : KeySource) (publicKey hash : Option String)
  | hashKey (certificate hash : String)
  | align (image aligned : String)
  | digest (stage : Stage) (image digest : String)
  | signDigest (key : KeySource) (stage : Stage) (image signature : String)
  | signBoot (source : SigningSource) (block : Option String) (image signed : String)
  | verifyBoot (certificate : String) (images : List String)
  | signOta (source : SigningSource) (image signed : String)
  | verifyOta (certificate : String) (images : List String)
  | simulate (files : Simulation)
  deriving DecidableEq, Repr

namespace Command

/-! ## Names and options -/

inductive Verb where
  | generateKey
  | hashKey
  | align
  | digest
  | signDigest
  | signBoot
  | verifyBoot
  | signOta
  | verifyOta
  | simulate
  deriving DecidableEq, Repr

def Verb.word : Verb → String
  | generateKey => "gen-key"
  | hashKey => "key-digest"
  | align => "align"
  | digest => "digest"
  | signDigest => "pki-sign"
  | signBoot => "sign-boot"
  | verifyBoot => "verify-boot"
  | signOta => "sign-ota"
  | verifyOta => "verify-ota"
  | simulate => "secure-sim"

def Verb.all : List Verb :=
  [generateKey, hashKey, align, digest, signDigest, signBoot, verifyBoot, signOta, verifyOta,
    simulate]

def Verb.ofWord? (word : String) : Option Verb :=
  all.find? fun verb => verb.word = word

def encodingForm : OptionForm := ⟨"key-type", some 't', .oneOf ["pem", "der"]⟩

def passwordForm : OptionForm := ⟨"key-password", some 'p', .text⟩

def stageForm : OptionForm := ⟨"stage", some 'g', .oneOf ["boot", "ota"]⟩

def keyForm : OptionForm := ⟨"key", some 'k', .path⟩

def certificateForm : OptionForm := ⟨"cert", some 'c', .path⟩

def signatureForm : OptionForm := ⟨"signature", some 'g', .path⟩

def blockForm : OptionForm := ⟨"block", some 'b', .path⟩

def publicKeyForm : OptionForm := ⟨"pub-key", some 'u', .path⟩

def hashForm : OptionForm := ⟨"hash", some 's', .path⟩

def bootKeyForm : OptionForm := ⟨"boot-key", none, .path⟩

def otaKeyForm : OptionForm := ⟨"ota-key", none, .path⟩

def bootCertificateForm : OptionForm := ⟨"boot-cert", none, .path⟩

def otaCertificateForm : OptionForm := ⟨"ota-cert", none, .path⟩

def verbosityForm : OptionForm := ⟨"verbosity", some 'l', .oneOf ["silent", "regular", "verbose"]⟩

def Verb.forms : Verb → List OptionForm
  | generateKey => [encodingForm, passwordForm, publicKeyForm, hashForm]
  | hashKey | align => []
  | digest => [stageForm]
  | signDigest => [keyForm, encodingForm, passwordForm, stageForm]
  | signBoot => [keyForm, encodingForm, passwordForm, signatureForm, certificateForm, blockForm]
  | signOta => [keyForm, encodingForm, passwordForm, signatureForm, certificateForm]
  | verifyBoot | verifyOta => [certificateForm]
  | simulate =>
    [bootKeyForm, otaKeyForm, encodingForm, bootCertificateForm, otaCertificateForm]

/-- How many operands there may be. -/
def Verb.mostOperands : Verb → Option Nat
  | generateKey => some 1
  | hashKey | align | digest | signDigest | signBoot | signOta => some 2
  | verifyBoot | verifyOta => none
  | simulate => some 3

/-! ## From arguments to commands -/

/-- The encoding of private keys; PEM where nothing else is said. -/
def encodingOf (arguments : Arguments) : KeyEncoding :=
  if arguments.value? encodingForm.name = some "der" then .der else .pem

/-- The stage; the boot stage where nothing else is said. -/
def stageOf (arguments : Arguments) : Stage :=
  if arguments.value? stageForm.name = some "ota" then .ota else .boot

def keySourceOf (arguments : Arguments) (path : String) : KeySource :=
  ⟨path, encodingOf arguments, arguments.value? passwordForm.name⟩

/-- The source of a signature: either a private key, or a signature together with a certificate. -/
def signingSourceOf (arguments : Arguments) : Option SigningSource :=
  let certificate := arguments.value? certificateForm.name
  match arguments.value? keyForm.name, arguments.value? signatureForm.name with
  | some key, none => some (.privateKey (keySourceOf arguments key) certificate)
  | none, some signature => certificate.map (.presigned signature)
  | _, _ => none

/-- The command that a verb with its arguments is. -/
def ofArguments? (verb : Verb) (arguments : Arguments) : Option Command :=
  match verb, arguments.operands with
  | .generateKey, [key] =>
    some (.generateKey (keySourceOf arguments key) (arguments.value? publicKeyForm.name)
      (arguments.value? hashForm.name))
  | .hashKey, [certificate, hash] => some (.hashKey certificate hash)
  | .align, [image, aligned] => some (.align image aligned)
  | .digest, [image, output] => some (.digest (stageOf arguments) image output)
  | .signDigest, [image, signature] => do
    let key ← arguments.value? keyForm.name
    return .signDigest (keySourceOf arguments key) (stageOf arguments) image signature
  | .signBoot, [image, signed] => do
    return .signBoot (← signingSourceOf arguments) (arguments.value? blockForm.name) image signed
  | .verifyBoot, image :: images => do
    return .verifyBoot (← arguments.value? certificateForm.name) (image :: images)
  | .signOta, [image, signed] => do
    return .signOta (← signingSourceOf arguments) image signed
  | .verifyOta, image :: images => do
    return .verifyOta (← arguments.value? certificateForm.name) (image :: images)
  | .simulate, [bootloader, firmware, outputDirectory] => do
    return .simulate {
      bootKey := ← arguments.value? bootKeyForm.name
      otaKey := ← arguments.value? otaKeyForm.name
      encoding := encodingOf arguments
      bootCertificate := arguments.value? bootCertificateForm.name
      otaCertificate := arguments.value? otaCertificateForm.name
      bootloader, firmware, outputDirectory }
  | _, _ => none

end Command

/-! ## Invocations -/

structure Invocation where
  verbosity : Verbosity
  command : Option Command
  deriving DecidableEq, Repr

namespace Invocation

/-- How much of the log to show; the regular part where nothing else is said. -/
def verbosityOf (arguments : Arguments) : Verbosity :=
  match arguments.value? Command.verbosityForm.name with
  | some "silent" => .silent
  | some "verbose" => .verbose
  | _ => .regular

def helpWord : String := "help"

/-- Whether the words behind the word for help name nothing, help itself or a command. -/
def isHelpTopic : List String → Bool
  | [] => true
  | [word] => word == helpWord || (Command.Verb.ofWord? word).isSome
  | _ => false

def parse (arguments : List String) : Except Stop Invocation := do
  let (leading, found) ← Arguments.scanLeading [Command.verbosityForm] arguments
  match found with
  | none =>
    if leading.options.isEmpty then .error .usage else .ok ⟨verbosityOf leading, none⟩
  | some (word, rest) =>
    if word = helpWord then .error (if isHelpTopic rest then .help else .usage)
    else
      match Command.Verb.ofWord? word with
      | none => .error .usage
      | some verb =>
        let own ← Arguments.scan verb.forms verb.mostOperands rest
        match Command.ofArguments? verb own with
        | some command => .ok ⟨verbosityOf leading, some command⟩
        | none => .error .usage

end Invocation

end SecureBoot
