import Mathlib.Data.List.Basic
import SecureBoot.Proofs.Log

/-!
# Reports — which lines of the log report a verified image

`Stage.verifiedImage?` reads off a line of the log which image it reports as verified, if it is such
a line.  Other lines that a command writes cannot be mistaken for one, since they begin or end in
another way (`Stage.opensOtherwise`, `Stage.endsOtherwise`).  `Stage.Quiet` says so of each kind of
line, and there is a lemma for each failure of a command that verifies.

`Stage.reports` is what a log reports all in all, as far as it is shown.
-/

namespace SecureBoot

/-! ## Reports of success -/

namespace Stage

def reportOpening : Stage → String
  | boot => "Image `"
  | ota => "OTA image `"

def reportClosing : String := "` verified successfully"

/-- The image that a line of the log reports as verified. -/
def verifiedImage? (stage : Stage) (text : String) : Option String := do
  let rest ← stage.reportOpening.toList.isPrefixOf? text.toList
  return String.ofList (← reportClosing.toList.isSuffixOf? rest)

theorem verifiedImage?_eq_some_iff {stage : Stage} {text image : String} :
    stage.verifiedImage? text = some image ↔
      text.toList = stage.reportOpening.toList ++ (image.toList ++ reportClosing.toList) := by
  simp only [verifiedImage?, bind, Option.bind_eq_some_iff, pure, Option.some.injEq,
    List.isPrefixOf?_eq_some_iff_append_eq, List.isSuffixOf?_eq_some_iff_append_eq]
  constructor
  · rintro ⟨rest, hopening, name, rfl, rfl⟩
    rw [← hopening, String.toList_ofList]
  · intro h
    exact ⟨_, h.symm, image.toList, rfl, String.ofList_toList⟩

theorem verifiedImage?_imageVerified (stage : Stage) (image : String) :
    stage.verifiedImage? (Report.imageVerified stage image).text = some image := by
  rw [verifiedImage?_eq_some_iff]
  cases stage <;>
    simp only [Report.imageVerified, Report.info, String.toList_append, List.append_assoc] <;> rfl

/-! ### Lines that begin otherwise -/

/-- Whether two texts differ at a position that both have. -/
def differ (xs ys : List Char) : Bool :=
  (xs.zip ys).any fun pair => pair.1 != pair.2

theorem differ_cons (x y : Char) (xs ys : List Char) :
    differ (x :: xs) (y :: ys) = (x != y || differ xs ys) := rfl

theorem differ_append {xs ys : List Char} (h : differ xs ys = true) (s t : List Char) :
    differ (xs ++ s) (ys ++ t) = true := by
  induction xs generalizing ys with
  | nil => cases h
  | cons x xs ih =>
      cases ys with
      | nil => cases h
      | cons y ys =>
          rw [List.cons_append, List.cons_append, differ_cons, Bool.or_eq_true]
          rw [differ_cons, Bool.or_eq_true] at h
          exact h.imp_right ih

theorem differ_self (xs : List Char) : differ xs xs = false := by
  induction xs with
  | nil => rfl
  | cons x xs ih => simp [differ_cons, ih]

/-- Whether a text begins in another way than the report of a verified image. -/
def opensOtherwise (stage : Stage) (text : String) : Bool :=
  differ text.toList stage.reportOpening.toList

theorem opensOtherwise_append {stage : Stage} {front : String}
    (h : stage.opensOtherwise front = true) (text : String) :
    stage.opensOtherwise (front ++ text) = true := by
  have happend := differ_append h text.toList []
  rwa [← String.toList_append, List.append_nil] at happend

theorem verifiedImage?_of_opensOtherwise {stage : Stage} {text : String}
    (h : stage.opensOtherwise text = true) : stage.verifiedImage? text = none := by
  rw [Option.eq_none_iff_forall_ne_some]
  intro image himage
  have happend := differ_append h [] (image.toList ++ reportClosing.toList)
  rw [List.append_nil, verifiedImage?_eq_some_iff.1 himage, differ_self] at happend
  cases happend

/-- A message about a file is an opening, the name of the file, what joins them and the reason. -/
theorem verifiedImage?_about {stage : Stage} {opening : String}
    (h : stage.opensOtherwise opening = true) (name joint reason : String) :
    stage.verifiedImage? (opening ++ name ++ joint ++ reason) = none :=
  verifiedImage?_of_opensOtherwise (opensOtherwise_append
    (opensOtherwise_append (opensOtherwise_append h name) joint) reason)

/-! ### Lines that end otherwise -/

/-- Whether a text has a last character that is not the one of a report. -/
def endsOtherwise (text : String) : Bool :=
  text.toList.getLast?.any fun c => c != 'y'

theorem endsOtherwise_append (front : String) {text : String} (h : endsOtherwise text = true) :
    endsOtherwise (front ++ text) = true := by
  unfold endsOtherwise at h ⊢
  cases hlast : text.toList.getLast? with
  | none =>
      rw [hlast] at h
      cases h
  | some c =>
      rw [hlast] at h
      rw [String.toList_append, List.getLast?_append, hlast]
      exact h

theorem verifiedImage?_of_endsOtherwise {stage : Stage} {text : String}
    (h : endsOtherwise text = true) : stage.verifiedImage? text = none := by
  rw [Option.eq_none_iff_forall_ne_some]
  intro image himage
  have hlast : text.toList.getLast? = some 'y' := by
    rw [verifiedImage?_eq_some_iff.1 himage, List.getLast?_append, List.getLast?_append]
    rfl
  rw [endsOtherwise, hlast] at h
  cases h

theorem endsOtherwise_number (width n : Nat) : endsOtherwise (Hex.number width n) = true := by
  -- Padding stands in front, so that the last character is that of the last digit.
  have hdigit : ∀ d < 16, (Nat.digitChar d != 'y') = true := by decide
  have hlast : (Nat.toDigits 16 n).getLast? = some (Nat.digitChar (n % 16)) := by
    rw [Nat.toDigits_eq_if (by decide)]
    split
    · next h =>
      rw [Nat.mod_eq_of_lt h]
      rfl
    · exact List.getLast?_concat
  rw [endsOtherwise, Hex.number, String.toList_ofList, List.getLast?_append, hlast]
  exact hdigit (n % 16) (Nat.mod_lt n (by decide))

theorem endsOtherwise_keyFault (fault : KeyFault) : endsOtherwise fault.message = true := by
  cases fault with
  | size bits => exact endsOtherwise_append _ (by decide)
  | rejected rejection =>
      refine endsOtherwise_append _ ?_
      cases rejection <;> decide
  | _ => decide

theorem endsOtherwise_reason (reason : Reason Empty) :
    endsOtherwise (reason.message Empty.elim) = true := by
  -- A message with values in it ends in a word or in a number; the others are fixed.
  cases reason with
  | blockLength length => exact endsOtherwise_append _ (by decide)
  | magic found => exact endsOtherwise_append _ (endsOtherwise_number _ _)
  | version found => exact endsOtherwise_append _ (endsOtherwise_append _ (by decide))
  | crc stored computed => exact endsOtherwise_append _ (endsOtherwise_number _ _)
  | imageLength length remainder => exact endsOtherwise_append _ (by decide)
  | signatureLength length => exact endsOtherwise_append _ (by decide)
  | key fault => exact endsOtherwise_keyFault fault
  | signer failure => exact failure.elim
  | _ => decide

theorem endsOtherwise_text (fault : Fault Empty) : endsOtherwise fault.text = true := by
  rcases fault with ⟨artifact, reason⟩
  cases artifact with
  | none => exact endsOtherwise_reason reason
  | some artifact => exact endsOtherwise_append _ (endsOtherwise_reason reason)

/-! ### Lines that report nothing -/

/-- No line reports an image as verified. -/
def Quiet (stage : Stage) (lines : List LogLine) : Prop :=
  ∀ line ∈ lines, stage.verifiedImage? line.text = none

variable {stage : Stage}

theorem quiet_nil (stage : Stage) : stage.Quiet [] := by
  intro line hline
  cases hline

theorem quiet_cons {line : LogLine} {lines : List LogLine}
    (hline : stage.verifiedImage? line.text = none) (hlines : stage.Quiet lines) :
    stage.Quiet (line :: lines) :=
  List.forall_mem_cons.2 ⟨hline, hlines⟩

theorem quiet_append {lines lines' : List LogLine} (h : stage.Quiet lines)
    (h' : stage.Quiet lines') : stage.Quiet (lines ++ lines') :=
  List.forall_mem_append.2 ⟨h, h'⟩

/-- A line of one piece of text that a report does not begin with, and what follows it. -/
theorem quiet_singleton {line : LogLine} (h : stage.opensOtherwise line.text = true) :
    stage.Quiet [line] :=
  quiet_cons (verifiedImage?_of_opensOtherwise h) (quiet_nil stage)

theorem quiet_certificateLoaded (key : KeyRecord) (path : Path) :
    stage.Quiet (Report.certificateLoaded key path) := by
  have hmade : stage.opensOtherwise "Key Montgomery constant M: 0x" = true := by
    cases stage <;> decide
  have hloaded : stage.opensOtherwise "Loaded " = true := by
    cases stage <;> decide
  refine quiet_cons (verifiedImage?_of_opensOtherwise (opensOtherwise_append hmade _)) ?_
  exact quiet_singleton (opensOtherwise_append (opensOtherwise_append (opensOtherwise_append
    (opensOtherwise_append hloaded _) _) _) _)

theorem quiet_verifyingImage (image : String) :
    stage.Quiet [Report.verifyingImage stage image] := by
  refine quiet_singleton ?_
  cases stage with
  | boot => exact opensOtherwise_append (opensOtherwise_append (by decide) image) _
  | ota => exact opensOtherwise_append (opensOtherwise_append (by decide) image) _

theorem quiet_validation {title : String} (h : stage.opensOtherwise title = true)
    (block : SignatureBlock) : stage.Quiet (Report.validation title block) := by
  have hchecksum : stage.opensOtherwise "Signature block CRC32: 0x" = true := by
    cases stage <;> decide
  unfold Report.validation
  split
  · refine quiet_cons (verifiedImage?_of_opensOtherwise (opensOtherwise_append hchecksum _)) ?_
    split
    · exact quiet_singleton (opensOtherwise_append (opensOtherwise_append h _) _)
    · exact quiet_nil stage
  · exact quiet_nil stage

theorem quiet_blockChecked (data : Bytes) : stage.Quiet (Report.blockChecked stage data) := by
  cases stage with
  | boot =>
      simp only [Report.blockChecked]
      split
      · exact quiet_validation (by decide) _
      · exact quiet_nil _
  | ota =>
      simp only [Report.blockChecked]
      split
      · split
        · exact quiet_validation (by decide) _
        · exact quiet_nil _
      · exact quiet_nil _

theorem quiet_signatureVerified (data : Bytes) :
    stage.Quiet [Report.signatureVerified stage data] := by
  refine quiet_singleton ?_
  cases stage with
  | boot => exact opensOtherwise_append (opensOtherwise_append (by decide) _) _
  | ota => exact opensOtherwise_append (opensOtherwise_append (by decide) _) _

/-! ### The failures of a command that verifies -/

theorem verifiedImage?_loadCertificate (path : Path) (fault : ReadFault) :
    stage.verifiedImage? (Failure.loadCertificate path fault.error).message = none := by
  have hopening : stage.opensOtherwise "Loading certificate `" = true := by
    cases stage <;> decide
  exact verifiedImage?_about hopening _ _ _

theorem verifiedImage?_parseCertificate (path : Path) (fault : Fault Empty) :
    stage.verifiedImage? (Failure.parseCertificate path fault).message = none := by
  have hopening : stage.opensOtherwise "Parsing certificate `" = true := by
    cases stage <;> decide
  exact verifiedImage?_about hopening _ _ _

/-- The failure of an image that cannot be read. -/
def unreadable (path : Path) : ReadFault → Failure
  | .opening error => .openImage path error
  | .reading error => .readImage path error

theorem verifiedImage?_unreadable (path : Path) (fault : ReadFault) :
    stage.verifiedImage? (unreadable path fault).message = none := by
  have hopening : stage.opensOtherwise "Loading image `" = true ∧
      stage.opensOtherwise "Reading image `" = true := by
    cases stage <;> decide
  cases fault with
  | opening error =>
      exact verifiedImage?_about hopening.1 _ _ _
  | reading error =>
      exact verifiedImage?_about hopening.2 _ _ _

/-- What is said of an image that is refused begins as the report of a verified one may, but it
ends with the fault. -/
theorem verifiedImage?_notSigned (image certificate : String) (fault : Fault Empty) :
    stage.verifiedImage? (Failure.notSigned image certificate fault).message = none :=
  verifiedImage?_of_endsOtherwise (endsOtherwise_append _ (endsOtherwise_text fault))

/-! ### What a log reports -/

/-- The images that lines of the log report as verified, as far as they are shown. -/
def reports (stage : Stage) (verbosity : Verbosity) (lines : List LogLine) : List String :=
  ((lines.filter fun line => verbosity.admits line.level).map LogLine.text).filterMap
    stage.verifiedImage?

theorem reports_append (verbosity : Verbosity) (lines lines' : List LogLine) :
    stage.reports verbosity (lines ++ lines') =
      stage.reports verbosity lines ++ stage.reports verbosity lines' := by
  simp only [reports, List.filter_append, List.map_append, List.filterMap_append]

theorem reports_of_quiet {lines : List LogLine} (h : stage.Quiet lines) (verbosity : Verbosity) :
    stage.reports verbosity lines = [] := by
  rw [reports, List.filterMap_eq_nil_iff]
  intro text htext
  rcases List.mem_map.1 htext with ⟨line, hline, rfl⟩
  exact h line (List.mem_of_mem_filter hline)

theorem reports_imageVerified {verbosity : Verbosity} (h : verbosity ≠ .silent) (image : String) :
    stage.reports verbosity [Report.imageVerified stage image] = [image] := by
  have hadmits : verbosity.admits (Report.imageVerified stage image).level = true := by
    cases verbosity with
    | silent => exact absurd rfl h
    | regular => cases stage <;> rfl
    | verbose => rfl
  simp [reports, hadmits, verifiedImage?_imageVerified]

end Stage

end SecureBoot
