/-!
# Arguments

The arguments of a command are options with a value each, and operands.  An option has a long name
and perhaps a letter; its value follows in the same argument or in the next one.

* `Arguments.scan` reads all arguments of a command.
* `Arguments.scanLeading` reads the options in front of the first operand.

Reading ends early with a `Stop`: because the arguments are wrong, or because they ask for help.
-/

namespace SecureBoot

/-- Why there is no command to run. -/
inductive Stop where
  /-- The arguments are not admitted. -/
  | usage
  /-- The arguments ask for a text about the program. -/
  | help
  deriving DecidableEq, Repr

/-- What may be a value of an option. -/
inductive ValueKind where
  /-- A path, which is not empty. -/
  | path
  | text
  | oneOf (names : List String)
  deriving DecidableEq, Repr

def ValueKind.admits : ValueKind → String → Bool
  | path, value => !value.isEmpty
  | text, _ => true
  | oneOf names, value => names.contains value

structure OptionForm where
  name : String
  letter : Option Char
  kind : ValueKind
  deriving DecidableEq, Repr

structure Arguments where
  options : List (String × String)
  operands : List String
  deriving DecidableEq, Repr

namespace Arguments

/-! ## Single arguments -/

inductive Item where
  /-- The argument behind which all are operands. -/
  | separator
  | long (name : String) (value : Option String)
  | short (letter : Char) (attached : List Char)
  | operand (text : String)
  deriving DecidableEq, Repr

def Item.of (argument : String) : Item :=
  match argument.toList with
  | ['-', '-'] => .separator
  | '-' :: '-' :: text =>
    let name := String.ofList (text.takeWhile (· ≠ '='))
    match text.dropWhile (· ≠ '=') with
    | [] => .long name none
    | _ :: value => .long name (some (String.ofList value))
  -- A dash alone is an operand.
  | '-' :: letter :: attached => .short letter attached
  | _ => .operand argument

/-- The value that is attached to a letter; an equals sign in front of it does not count. -/
def attachedValue : List Char → Option String
  | [] => none
  | '=' :: value => some (String.ofList value)
  | value => some (String.ofList value)

/-- The flags that all commands know, and whether there is one for the version too. -/
structure Flags where
  version : Bool

def Flags.isLong (flags : Flags) (name : String) : Bool :=
  name == "help" || (flags.version && name == "version")

def Flags.isShort (flags : Flags) (letter : Char) : Bool :=
  letter == 'h' || (flags.version && letter == 'V')

/-- The value of an option: the attached one, or else the next argument if it looks like an
operand. -/
def takeValue (attached : Option String) (rest : List String) :
    Except Stop (String × List String) :=
  match attached, rest with
  | some value, rest => .ok (value, rest)
  | none, next :: rest =>
    match Item.of next with
    | .operand value => .ok (value, rest)
    | _ => .error .usage
  | none, [] => .error .usage

/-- The option with a form, its value checked. -/
def takeForm (form : Option OptionForm) (attached : Option String) (rest : List String) :
    Except Stop ((String × String) × List String) :=
  match form with
  | none => .error .usage
  | some form =>
    match takeValue attached rest with
    | .error stop => .error stop
    | .ok (value, rest) =>
      if form.kind.admits value then .ok ((form.name, value), rest) else .error .usage

/-- The option that an item is, and the arguments after it. -/
def takeOption (flags : Flags) (forms : List OptionForm) (item : Item) (rest : List String) :
    Except Stop ((String × String) × List String) :=
  match item with
  | .long name value =>
    if flags.isLong name then .error (if value.isSome then .usage else .help)
    else takeForm (forms.find? fun form => form.name = name) value rest
  | .short letter attached =>
    if flags.isShort letter then .error .help
    else takeForm (forms.find? fun form => form.letter = some letter) (attachedValue attached) rest
  | _ => .error .usage

theorem length_of_takeForm {form : Option OptionForm} {attached : Option String}
    {rest rest' : List String} {o : String × String}
    (h : takeForm form attached rest = .ok (o, rest')) : rest'.length ≤ rest.length := by
  simp only [takeForm, takeValue] at h
  grind

theorem length_of_takeOption {flags : Flags} {forms : List OptionForm} {item : Item}
    {rest rest' : List String} {o : String × String}
    (h : takeOption flags forms item rest = .ok (o, rest')) : rest'.length ≤ rest.length := by
  simp only [takeOption] at h
  split at h
  · split at h
    · cases h
    · exact length_of_takeForm h
  · split at h
    · cases h
    · exact length_of_takeForm h
  · cases h

/-! ## All arguments -/

def empty : Arguments := ⟨[], []⟩

/-- The value of an option, if it is given. -/
def value? (arguments : Arguments) (name : String) : Option String :=
  arguments.options.lookup name

/-- One more option, which may not be given twice. -/
def addOption (arguments : Arguments) (o : String × String) : Except Stop Arguments :=
  if (arguments.value? o.1).isSome then .error .usage
  else .ok { arguments with options := arguments.options ++ [o] }

/-- One more operand, if there may be one; it is not empty. -/
def addOperand (most : Option Nat) (arguments : Arguments) (operand : String) :
    Except Stop Arguments :=
  if operand.isEmpty || most.any fun most => decide (most ≤ arguments.operands.length) then
    .error .usage
  else .ok { arguments with operands := arguments.operands ++ [operand] }

/-- Read all arguments, after what is already read. -/
def scanAfter (flags : Flags) (forms : List OptionForm) (most : Option Nat)
    (arguments : Arguments) (rest : List String) : Except Stop Arguments :=
  match rest with
  | [] => .ok arguments
  | argument :: rest =>
    match Item.of argument with
    | .separator => rest.foldlM (addOperand most) arguments
    | .operand operand => do
      scanAfter flags forms most (← addOperand most arguments operand) rest
    | item =>
      match _h : takeOption flags forms item rest with
      | .error stop => .error stop
      | .ok (o, rest') => do scanAfter flags forms most (← addOption arguments o) rest'
termination_by rest.length
decreasing_by
  · simp
  · have := length_of_takeOption _h
    simp only [List.length_cons]
    omega

/-- Read all arguments; `most` bounds the number of operands. -/
def scan (forms : List OptionForm) (most : Option Nat) (rest : List String) :
    Except Stop Arguments :=
  scanAfter ⟨false⟩ forms most empty rest

/-- Read the options in front of the first operand, after what is already read.  The result holds
the operand and what follows it; behind a separator no operand may follow. -/
def scanLeadingAfter (flags : Flags) (forms : List OptionForm) (arguments : Arguments)
    (rest : List String) : Except Stop (Arguments × Option (String × List String)) :=
  match rest with
  | [] => .ok (arguments, none)
  | argument :: rest =>
    match Item.of argument with
    | .separator => if rest.isEmpty then .ok (arguments, none) else .error .usage
    | .operand operand => .ok (arguments, some (operand, rest))
    | item =>
      match _h : takeOption flags forms item rest with
      | .error stop => .error stop
      | .ok (o, rest') => do scanLeadingAfter flags forms (← addOption arguments o) rest'
termination_by rest.length
decreasing_by
  have := length_of_takeOption _h
  simp only [List.length_cons]
  omega

/-- Read the options in front of the first operand, among them a flag for the version. -/
def scanLeading (forms : List OptionForm) (rest : List String) :
    Except Stop (Arguments × Option (String × List String)) :=
  scanLeadingAfter ⟨true⟩ forms empty rest

end Arguments

end SecureBoot
