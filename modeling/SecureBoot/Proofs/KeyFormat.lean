import SecureBoot.KeyFile.Format
import SecureBoot.Proofs.Pem

/-!
# KeyFormat — the form of a file is told from its content

* `detect_encodeWith`: a PEM text is recognised by its label.  The lines of Base64 hold no hyphen,
  so that no other boundary can be found in them.
* `detect_of_sequence`: an octet string that begins with the tag of a sequence is not taken for
  text.
-/

namespace SecureBoot

/-! ## Octets as characters -/

namespace Utf8

/-- The character that an octet below 128 stands for. -/
def character (b : UInt8) : Char :=
  Char.ofNat b.toNat

theorem takeCharacter_cons {b : UInt8} (h : b.toNat < 0x80) (bs : Bytes) :
    takeCharacter (b :: bs) = some (character b, bs) := by
  have hcharacter : ∀ n < 0x80, character? 0 n = some (Char.ofNat n) := by
    decide
  simp [takeCharacter, lead?, h, takeContinuations, hcharacter _ h, character]

theorem decodeAfter_cons {b : UInt8} (h : b.toNat < 0x80) (text : List Char) (bs : Bytes) :
    decodeAfter text (b :: bs) = decodeAfter (character b :: text) bs := by
  have htake := takeCharacter_cons h bs
  rw [decodeAfter.eq_def]
  dsimp only
  split
  · next hnone => cases hnone.symm.trans htake
  · next hfound => cases hfound.symm.trans htake; rfl

/-- Octets below 128 are one character each. -/
theorem decode?_eq_map {bs : Bytes} (h : ∀ b ∈ bs, b.toNat < 0x80) :
    decode? bs = some (bs.map character) := by
  have hafter (text : List Char) :
      decodeAfter text bs = some (text.reverse ++ bs.map character) := by
    induction bs generalizing text with
    | nil => simp [decodeAfter]
    | cons b bs ih =>
        rcases List.forall_mem_cons.1 h with ⟨hb, hbs⟩
        simp [decodeAfter_cons hb, ih hbs]
  simpa [decode?] using hafter []

/-- The characters in front are kept. -/
theorem append_of_decodeAfter {text found : List Char} {bs : Bytes}
    (h : decodeAfter text bs = some found) : text.reverse <+: found := by
  fun_induction decodeAfter text bs with
  | case1 text => exact (Option.some.inj h) ▸ List.prefix_refl _
  | case2 => cases h
  | case3 text b bs c rest htake ih =>
      have hprefix := ih h
      rw [List.reverse_cons] at hprefix
      exact (List.prefix_append _ _).trans hprefix

end Utf8

namespace KeyFormat

/-! ## Searching a text -/

variable {wanted xs ys : List Char} {c : Char}

theorem isPrefixOf_append_cons (h : c ∉ wanted) (xs ys : List Char) :
    wanted.isPrefixOf (xs ++ c :: ys) = wanted.isPrefixOf xs := by
  induction xs generalizing wanted with
  | nil =>
      cases wanted with
      | nil => rfl
      | cons w wanted =>
          have hne : w ≠ c := by
            rintro rfl
            exact h List.mem_cons_self
          simp [List.isPrefixOf, hne]
  | cons x xs ih =>
      cases wanted with
      | nil => rfl
      | cons w wanted =>
          have hmem : c ∉ wanted := fun hc => h (List.mem_cons_of_mem _ hc)
          simp [List.isPrefixOf, ih hmem]

/-- What holds no line end is found on one side of a line end or on the other. -/
theorem containsText_append_cons (h : c ∉ wanted) (xs ys : List Char) :
    containsText wanted (xs ++ c :: ys) = (containsText wanted xs || containsText wanted ys) := by
  induction xs with
  | nil =>
      have hprefix := isPrefixOf_append_cons h [] ys
      cases wanted <;> simp_all [containsText]
  | cons x xs ih =>
      have hprefix := isPrefixOf_append_cons h (x :: xs) ys
      rw [List.cons_append] at hprefix ⊢
      rw [containsText, hprefix, ih, containsText, Bool.or_assoc]

/-- Nothing is found where its first character does not stand. -/
theorem containsText_append_of_not_mem (h : c ∉ xs) (wanted ys : List Char) :
    containsText (c :: wanted) (xs ++ ys) = containsText (c :: wanted) ys := by
  induction xs with
  | nil => rfl
  | cons x xs ih =>
      have hne : c ≠ x := fun hc => h (by simp [hc])
      have hmem : c ∉ xs := fun hc => h (List.mem_cons_of_mem x hc)
      have hprefix : (c :: wanted).isPrefixOf (x :: (xs ++ ys)) = false := by
        simp [List.isPrefixOf, hne]
      rw [List.cons_append, containsText, hprefix, ih hmem, Bool.false_or]

/-! ## PEM texts -/

open Pem

theorem ascii_of_isTextual {b : UInt8} (h : Base64.isTextual b = true) :
    b.toNat < 0x80 ∧ b ≠ 0x2d := by
  have hall : ∀ n < 256, Base64.isTextual (UInt8.ofNat n) = true →
      n < 0x80 ∧ n ≠ 0x2d := by
    decide +kernel
  have hvalue := hall b.toNat b.toNat_lt (by simpa using h)
  refine ⟨hvalue.1, ?_⟩
  rintro rfl
  exact hvalue.2 rfl

/-- The lines of Base64 hold neither a hyphen nor anything that is not ASCII. -/
theorem ascii_of_mem_linesOf {lineEnd : LineEnd} {rows : List Bytes} {b : UInt8}
    (h : b ∈ linesOf lineEnd rows) : b.toNat < 0x80 ∧ b ≠ 0x2d := by
  have hends : ∀ c ∈ lineEnd.octets, c.toNat < 0x80 ∧ c ≠ 0x2d := by
    cases lineEnd <;> simp [LineEnd.octets]
  rcases List.mem_flatMap.1 h with ⟨row, -, hb⟩
  rcases List.mem_append.1 hb with hb | hb
  · exact ascii_of_isTextual (Base64.isTextual_of_mem_encode hb)
  · exact hends b hb

theorem character_ne_hyphen {b : UInt8} (h : b.toNat < 0x80) (hne : b ≠ 0x2d) :
    Utf8.character b ≠ '-' := by
  have hall : ∀ n < 0x80, Char.ofNat n = '-' → n = 0x2d := by
    decide
  intro hc
  exact hne (UInt8.toNat_inj.1 (hall b.toNat h hc))

theorem hyphen_not_mem_linesOf (lineEnd : LineEnd) (rows : List Bytes) :
    '-' ∉ (linesOf lineEnd rows).map Utf8.character := by
  intro hmem
  rcases List.mem_map.1 hmem with ⟨b, hb, hc⟩
  rcases ascii_of_mem_linesOf hb with ⟨hascii, hne⟩
  exact character_ne_hyphen hascii hne hc

/-- A boundary is found in a PEM text only if it is one of the two boundaries of this text. -/
theorem containsText_encodeWith (wanted : List Char) (hlf : '\n' ∉ '-' :: wanted)
    (hcr : '\r' ∉ '-' :: wanted) (lineEnd : LineEnd) (label : String) (data : Bytes) :
    containsText ('-' :: wanted) ((encodeWith lineEnd label data).map Utf8.character) =
      (containsText ('-' :: wanted) ((opening label).map Utf8.character) ||
        containsText ('-' :: wanted) ((closing label ++ lineEnd.octets).map Utf8.character)) := by
  have hlines := hyphen_not_mem_linesOf lineEnd (rows data)
  simp only [encodeWith, List.map_append, List.append_assoc]
  generalize (linesOf lineEnd (rows data)).map Utf8.character = lines at hlines ⊢
  generalize (opening label).map Utf8.character = front
  generalize (closing label).map Utf8.character = back
  cases lineEnd with
  | lf =>
      exact (containsText_append_cons hlf front _).trans
        (congrArg _ (containsText_append_of_not_mem hlines wanted _))
  | cr =>
      exact (containsText_append_cons hcr front _).trans
        (congrArg _ (containsText_append_of_not_mem hlines wanted _))
  -- The text is cut at the return, so that the feed is the first character of the lines.
  | crlf =>
      have hlines' : '-' ∉ '\n' :: lines := by
        simpa using hlines
      exact (containsText_append_cons hcr front _).trans
        (congrArg _ (containsText_append_of_not_mem hlines' wanted _))

/-- A PEM text is ASCII if its boundaries are. -/
theorem ascii_of_mem_encodeWith {lineEnd : LineEnd} {label : String}
    (h : ∀ b ∈ opening label ++ closing label ++ lineEnd.octets, b.toNat < 0x80) (data : Bytes) :
    ∀ b ∈ encodeWith lineEnd label data, b.toNat < 0x80 := by
  intro b hb
  simp only [encodeWith, List.mem_append] at hb
  rcases hb with (((hb | hb) | hb) | hb) | hb
  · exact h b (by simp [hb])
  · exact h b (by simp [hb])
  · exact (ascii_of_mem_linesOf hb).1
  · exact h b (by simp [hb])
  · exact h b (by simp [hb])

/-- The label of a PEM text in a form, for the forms that are PEM. -/
def label? : KeyFormat → Option String
  | pemPublicKey => some publicKeyLabel
  | pemRsaPublicKey => some rsaPublicKeyLabel
  | pemCertificate => some certificateLabel
  | derPublicKey | derCertificate => none

/-- A PEM text is recognised by its label. -/
theorem detect_encodeWith {format : KeyFormat} {label : String} (h : format.label? = some label)
    (lineEnd : LineEnd) (data : Bytes) : detect (encodeWith lineEnd label data) = format := by
  -- All but the lines of Base64 is known, and there are few cases of it.
  have hall : (opening label ++ closing label ++ lineEnd.octets).all
      (fun b => decide (b.toNat < 0x80)) = true := by
    cases format <;> cases h <;> cases lineEnd <;> decide
  have hascii := ascii_of_mem_encodeWith
    (fun b hb => of_decide_eq_true (List.all_eq_true.1 hall b hb)) data
  have hstart : "-----BEGIN ".toList.isPrefixOf
      (trimStart ((encodeWith lineEnd label data).map Utf8.character)) = true := by
    have hmark : beginMark.map Utf8.character = "-----BEGIN ".toList := by
      decide
    simp only [encodeWith, opening, List.append_assoc, List.map_append, hmark]
    rfl
  -- Only the boundaries of the text itself are left to be searched.
  have hcertificate := containsText_encodeWith (openingLine certificateLabel).tail (by decide)
    (by decide) lineEnd label data
  have hrsa := containsText_encodeWith (openingLine rsaPublicKeyLabel).tail (by decide)
    (by decide) lineEnd label data
  have hopening : openingLine certificateLabel = '-' :: (openingLine certificateLabel).tail ∧
      openingLine rsaPublicKeyLabel = '-' :: (openingLine rsaPublicKeyLabel).tail := by
    decide
  rw [← hopening.1] at hcertificate
  rw [← hopening.2] at hrsa
  simp only [detect, Utf8.decode?_eq_map hascii, hstart, if_true, hcertificate, hrsa]
  cases format <;> cases h <;> cases lineEnd <;> decide

/-- What begins with the tag of a sequence is taken for a certificate, text or not. -/
theorem detect_of_sequence (data : Bytes) : detect (0x30 :: data) = derCertificate := by
  unfold detect
  split
  · rfl
  · next text htext =>
    have hhead : ['0'] <+: text := by
      rw [Utf8.decode?, Utf8.decodeAfter_cons (by decide)] at htext
      exact Utf8.append_of_decodeAfter htext
    rcases hhead with ⟨rest, rfl⟩
    rfl

end KeyFormat

end SecureBoot
