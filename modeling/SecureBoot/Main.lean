import SecureBoot.Command.Run
import SecureBoot.Rsa.Generator

/-!
# The program

The machine that the program runs on, as a `Host`, and the program's entry.  What the program does
is in `runProgram`; here is only what needs the machine.
-/

namespace SecureBoot

/-- Actions on the machine; the state says which lines of the log are shown. -/
abbrev Machine := StateT Verbosity IO

namespace Machine

/-! ## Errors -/

def errorOf (code : UInt32) (text : String) : OsError :=
  match code.toNat with
  | 2 => .notFound
  | 16 => .busy
  | 17 => .exists
  | 20 => .notDirectory
  | 21 => .isDirectory
  | 36 => .nameTooLong
  | number => .other s!"{text} (os error {number})"

/-- The error that an operation of the machine ended with. -/
def osError : IO.Error → OsError
  | .alreadyExists _ code text | .invalidArgument _ code text | .permissionDenied _ code text
  | .resourceExhausted _ code text | .inappropriateType _ code text | .noSuchThing _ code text
  | .interrupted _ code text | .noFileOrDirectory _ code text => errorOf code text
  | .otherError code text | .resourceBusy code text | .resourceVanished code text
  | .unsupportedOperation code text | .hardwareFault code text
  | .unsatisfiedConstraints code text | .illegalOperation code text | .protocolError code text
  | .timeExpired code text => errorOf code text
  | .unexpectedEof => .other "unexpected end of file"
  | .userError text => .other text

/-- An operation with its error as a value. -/
def attempt {α : Type} (operation : IO α) : Machine (Except OsError α) := do
  return (← operation.toBaseIO).mapError osError

/-! ## Files -/

def readFile (path : Path) : Machine (Except ReadFault Bytes) := do
  match ← attempt (IO.FS.Handle.mk path.render .read) with
  | .error error => return .error (.opening error)
  | .ok handle =>
    match ← attempt handle.readBinToEnd with
    | .error error => return .error (.reading error)
    | .ok content => return .ok content.data.toList

def randomBytes (count : Nat) : Machine Bytes := do
  return (← IO.getRandomBytes (USize.ofNat count)).data.toList

def nameCharacters : List Char :=
  "ABCDEFGHIJKLMNOPQRSTUVWXYZabcdefghijklmnopqrstuvwxyz0123456789".toList

def temporaryName : Machine String := do
  let choices ← randomBytes 6
  return ".tmp" ++ String.ofList
    (choices.map fun b => nameCharacters.getD (b.toNat % nameCharacters.length) '0')

def temporaryPath (temporary : Temporary) : String :=
  Path.join temporary.directory.render temporary.name

/-- Make a temporary file that was not there before. -/
def createTemporary (directory : Path) : Machine (Except OsError Temporary) := do
  let temporary : Temporary := ⟨directory, ← temporaryName⟩
  let result ← attempt (IO.FS.Handle.mk (temporaryPath temporary) .writeNew)
  return result.map fun _ => temporary

/-- Whether a path leads to a directory: only then does it still lead somewhere with a step to the
same place behind it. -/
def isDirectory (path : Path) : Machine Bool := do
  let text := path.render ++ "/."
  match ← attempt (IO.FS.realPath text) with
  | .ok found => return toString found ≠ text
  | .error _ => return false

/-! ## Keys -/

/-- The first prime among some random numbers. -/
def randomPrime? : Nat → Machine (Option Nat)
  | 0 => return none
  | tries + 1 => do
    let random := Octets.ofNat Rsa.Generator.primeLength
      (littleEndian (← randomBytes Rsa.Generator.primeLength))
    match Rsa.Generator.candidate? random with
    | some prime => return some prime
    | none => randomPrime? tries

def generateKey : Machine (Except String Rsa.PrivateKey) := do
  let tries := 100000
  match ← randomPrime? tries, ← randomPrime? tries with
  | some prime1, some prime2 =>
    match Rsa.Generator.key? prime1 prime2 with
    | some key => return .ok key
    | none => return .error "the primes make no key"
  | _, _ => return .error "no prime found"

end Machine

instance : Host Machine where
  setVerbosity verbosity := set verbosity
  log line := do
    if (← get).admits line.level then IO.eprintln line.text
  currentDirectory := return Path.parse (toString (← IO.currentDir))
  readFile := Machine.readFile
  createTemporary := Machine.createTemporary
  writeTemporary temporary content :=
    Machine.attempt (IO.FS.writeBinFile (Machine.temporaryPath temporary) ⟨content.toArray⟩)
  moveTemporary temporary path :=
    Machine.attempt (IO.FS.rename (Machine.temporaryPath temporary) path.render)
  removeTemporary temporary := do
    let _ ← Machine.attempt (IO.FS.removeFile (Machine.temporaryPath temporary))
  makeDirectory path := Machine.attempt (IO.FS.createDir path.render)
  isDirectory := Machine.isDirectory
  drawSalt := return Octets.ofNat Layout.saltLength (littleEndian (← Machine.randomBytes 32))
  generateKey := Machine.generateKey

def usageText : String :=
  "Usage: secureboot [-l silent|regular|verbose] COMMAND [OPTION...] [FILE...]\n" ++
    "Commands: " ++ String.intercalate ", " (Command.Verb.all.map Command.Verb.word)

/-- Say how the program is used, if its arguments do not make a command. -/
def explain (arguments : List String) : IO Unit :=
  match Invocation.parse arguments with
  | .ok _ => return
  | .error .help => IO.println usageText
  | .error .usage => IO.eprintln usageText

end SecureBoot

def main (arguments : List String) : IO UInt32 := do
  SecureBoot.explain arguments
  let run : SecureBoot.Machine SecureBoot.ExitCode := SecureBoot.runProgram arguments
  let (code, _) ← run.run .regular
  return UInt32.ofNat code.toNat
