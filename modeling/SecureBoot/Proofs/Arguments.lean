import SecureBoot.Command.Run

/-!
# Arguments — which arguments ask for a verification

`Arguments.scanAfter` and `Arguments.scanLeadingAfter` take one item after the other; the lemmas
here say what they do with an option, an operand and a separator.  From them,
`Invocation.parse_verifyArguments` says that every verification can be asked for: whatever the names
of the certificate and of the images are, if only none is empty.
-/

namespace SecureBoot

namespace Arguments

/-! ## Single items -/

variable {flags : Flags} {forms : List OptionForm} {given : Arguments} {argument : String}
  {rest rest' : List String} {o : String × String} {most : Option Nat}

theorem scanLeadingAfter_option
    (h : takeOption flags forms (Item.of argument) rest = .ok (o, rest')) :
    scanLeadingAfter flags forms given (argument :: rest) =
      (addOption given o >>= fun given => scanLeadingAfter flags forms given rest') := by
  rw [scanLeadingAfter.eq_def]
  dsimp only
  split
  · next hitem => rw [hitem] at h; cases h
  · next hitem => rw [hitem] at h; cases h
  · split
    · next hfailed => cases h.symm.trans hfailed
    · next hfound =>
      cases h.symm.trans hfound
      rfl

theorem scanAfter_option
    (h : takeOption flags forms (Item.of argument) rest = .ok (o, rest')) :
    scanAfter flags forms most given (argument :: rest) =
      (addOption given o >>= fun given => scanAfter flags forms most given rest') := by
  rw [scanAfter.eq_def]
  dsimp only
  split
  · next hitem => rw [hitem] at h; cases h
  · next hitem => rw [hitem] at h; cases h
  · split
    · next hfailed => cases h.symm.trans hfailed
    · next hfound =>
      cases h.symm.trans hfound
      rfl

theorem scanLeadingAfter_operand {operand : String} (h : Item.of argument = .operand operand) :
    scanLeadingAfter flags forms given (argument :: rest) =
      .ok (given, some (operand, rest)) := by
  rw [scanLeadingAfter.eq_def]
  dsimp only
  rw [h]

theorem scanAfter_separator (h : Item.of argument = .separator) :
    scanAfter flags forms most given (argument :: rest) =
      rest.foldlM (addOperand most) given := by
  rw [scanAfter.eq_def]
  dsimp only
  rw [h]

/-! ## Operands -/

/-- All operands are admitted if none is empty and their number is not bounded. -/
theorem foldlM_addOperand {operands : List String} (h : ∀ operand ∈ operands, operand ≠ "")
    (given : Arguments) :
    operands.foldlM (addOperand none) given =
      .ok { given with operands := given.operands ++ operands } := by
  induction operands generalizing given with
  | nil => rw [List.append_nil]; rfl
  | cons operand operands ih =>
      rcases List.forall_mem_cons.1 h with ⟨hoperand, hrest⟩
      have hadd : addOperand none given operand =
          .ok { given with operands := given.operands ++ [operand] } := by
        simp [addOperand, hoperand]
      rw [List.foldlM_cons, hadd]
      exact (ih hrest _).trans (by rw [List.append_assoc, List.singleton_append])

end Arguments

/-! ## Verifications -/

def Verbosity.word : Verbosity → String
  | silent => "silent"
  | regular => "regular"
  | verbose => "verbose"

/-- The command that verifies images of a stage. -/
def Stage.verifyCommand : Stage → String → List String → Command
  | boot, certificate, images => .verifyBoot certificate images
  | ota, certificate, images => .verifyOta certificate images

def Stage.verifyVerb : Stage → Command.Verb
  | boot => .verifyBoot
  | ota => .verifyOta

/-- Arguments that ask for the verification of images.  The certificate stands behind an equals
sign and the images behind a separator, so that a dash in front of a name does not count. -/
def Stage.verifyArguments (stage : Stage) (verbosity : Verbosity) (certificate : String)
    (images : List String) : List String :=
  "-l" :: verbosity.word :: stage.verifyVerb.word :: ("--cert=" ++ certificate) :: "--" :: images

theorem Arguments.scan_verifyArguments (stage : Stage) {certificate : String}
    {images : List String} (hcertificate : certificate ≠ "") (h : ∀ image ∈ images, image ≠ "") :
    scan stage.verifyVerb.forms stage.verifyVerb.mostOperands
      (("--cert=" ++ certificate) :: "--" :: images) =
        .ok ⟨[("cert", certificate)], images⟩ := by
  -- The name is taken whole from behind the equals sign, whatever it begins with.
  have hitem : Item.of ("--cert=" ++ certificate) = .long "cert" (some certificate) := by
    have htext : ("--cert=" ++ certificate).toList =
        '-' :: '-' :: 'c' :: 'e' :: 'r' :: 't' :: '=' :: certificate.toList := by
      rw [String.toList_append]
      rfl
    simp [Item.of, htext]
  have hoption : takeOption ⟨false⟩ [Command.certificateForm]
      (Item.of ("--cert=" ++ certificate)) ("--" :: images) =
        .ok (("cert", certificate), "--" :: images) := by
    rw [hitem]
    simp [takeOption, Flags.isLong, takeForm, takeValue, Command.certificateForm,
      ValueKind.admits, hcertificate]
  have hforms : stage.verifyVerb.forms = [Command.certificateForm] := by
    cases stage <;> rfl
  have hmost : stage.verifyVerb.mostOperands = none := by
    cases stage <;> rfl
  rw [scan, hforms, hmost, scanAfter_option hoption]
  exact (scanAfter_separator (by decide)).trans (foldlM_addOperand h _)

theorem Arguments.scanLeading_verifyArguments (stage : Stage) (verbosity : Verbosity)
    (rest : List String) :
    scanLeading [Command.verbosityForm] ("-l" :: verbosity.word :: stage.verifyVerb.word :: rest) =
      .ok (⟨[("verbosity", verbosity.word)], []⟩, some (stage.verifyVerb.word, rest)) := by
  have hoption : takeOption ⟨true⟩ [Command.verbosityForm] (Item.of "-l")
      (verbosity.word :: stage.verifyVerb.word :: rest) =
        .ok (("verbosity", verbosity.word), stage.verifyVerb.word :: rest) := by
    cases verbosity <;> rfl
  have hword : Item.of stage.verifyVerb.word = .operand stage.verifyVerb.word := by
    cases stage <;> decide
  rw [scanLeading, scanLeadingAfter_option hoption]
  exact scanLeadingAfter_operand hword

theorem Invocation.parse_verifyArguments (stage : Stage) (verbosity : Verbosity)
    {certificate : String} {images : List String} (hcertificate : certificate ≠ "")
    (hsome : images ≠ []) (h : ∀ image ∈ images, image ≠ "") :
    parse (stage.verifyArguments verbosity certificate images) =
      .ok ⟨verbosity, some (stage.verifyCommand certificate images)⟩ := by
  have hverb : Command.Verb.ofWord? stage.verifyVerb.word = some stage.verifyVerb := by
    cases stage <;> decide
  have hhelp : stage.verifyVerb.word ≠ helpWord := by
    cases stage <;> decide
  have hverbosity : verbosityOf ⟨[("verbosity", verbosity.word)], []⟩ = verbosity := by
    cases verbosity <;> decide
  have hcommand : Command.ofArguments? stage.verifyVerb ⟨[("cert", certificate)], images⟩ =
      some (stage.verifyCommand certificate images) := by
    cases images with
    | nil => exact absurd rfl hsome
    | cons image images => cases stage <;> rfl
  rw [parse, Stage.verifyArguments, Arguments.scanLeading_verifyArguments]
  simp only [bind, Except.bind, hhelp, if_false, hverb,
    Arguments.scan_verifyArguments stage hcertificate h, hcommand, hverbosity]

end SecureBoot
