import SecureBoot.Bytes
import SecureBoot.Files.Path
import SecureBoot.Rsa.Pss

/-!
# Hosts

A `Host` is what the commands need of the machine they run on: files, temporary files, salts for
signatures, new keys, and a log.  `OsError` is why an operation on files fails.
-/

namespace SecureBoot

/-- Why an operation on files fails. -/
inductive OsError where
  | notFound
  | busy
  | exists
  | notDirectory
  | isDirectory
  | nameTooLong
  /-- Any other cause, in words. -/
  | other (description : String)
  deriving DecidableEq, Repr

def OsError.message : OsError → String
  | notFound => "No such file or directory (os error 2)"
  | busy => "Device or resource busy (os error 16)"
  | .exists => "File exists (os error 17)"
  | notDirectory => "Not a directory (os error 20)"
  | isDirectory => "Is a directory (os error 21)"
  | nameTooLong => "File name too long (os error 36)"
  | other description => description

/-- At which step reading a file fails. -/
inductive ReadFault where
  | opening (error : OsError)
  | reading (error : OsError)
  deriving DecidableEq, Repr

def ReadFault.error : ReadFault → OsError
  | opening error => error
  | reading error => error

inductive Level where
  | error
  | info
  | debug
  deriving DecidableEq, Repr

structure LogLine where
  level : Level
  text : String
  deriving DecidableEq, Repr

inductive Verbosity where
  | silent
  | regular
  | verbose
  deriving DecidableEq, Repr

def Verbosity.admits : Verbosity → Level → Bool
  | silent, _ => false
  | regular, .debug => false
  | regular, _ => true
  | verbose, _ => true

/-- A temporary file: the directory it is in and its name there. -/
structure Temporary where
  directory : Path
  name : String
  deriving DecidableEq, Repr

/-- What commands ask of the machine they run on. -/
class Host (m : Type → Type) where
  setVerbosity : Verbosity → m Unit
  log : LogLine → m Unit
  currentDirectory : m Path
  readFile : Path → m (Except ReadFault Bytes)
  createTemporary : Path → m (Except OsError Temporary)
  writeTemporary : Temporary → Bytes → m (Except OsError Unit)
  /-- Move a temporary file to a path, in place of a file that is there. -/
  moveTemporary : Temporary → Path → m (Except OsError Unit)
  removeTemporary : Temporary → m Unit
  makeDirectory : Path → m (Except OsError Unit)
  isDirectory : Path → m Bool
  drawSalt : m Salt
  /-- Make a new private key, or say why that is not possible. -/
  generateKey : m (Except String Rsa.PrivateKey)

end SecureBoot
