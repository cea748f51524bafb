import Mathlib.Data.List.Basic
import SecureBoot.Pem.Armour
import SecureBoot.Proofs.Base64

/-!
# PEM — texts that were written are read back

Octets are written in rows of 48, each of which is a line of 64 characters; only the last row may be
shorter.  `encodeWith` writes them with any of the three line ends, and `encode` is the case of one
of these.

`decode?_encodeWith` says that a text which was written is read back, whatever its line ends are;
`decode?_encode` is the case of the text that the program writes.
-/

namespace SecureBoot.Pem

/-! ## Line ends -/

inductive LineEnd where
  | lf
  | cr
  | crlf
  deriving DecidableEq, Repr

def LineEnd.octets : LineEnd → Bytes
  | lf => [0x0a]
  | cr => [0x0d]
  | crlf => [0x0d, 0x0a]

variable {text : Bytes} {c : UInt8}

/-- The line end is read as a whole if no line feed follows that might belong to it. -/
theorem dropLineEnd?_append (lineEnd : LineEnd) (h : text.head? ≠ some 0x0a) :
    dropLineEnd? (lineEnd.octets ++ text) = some text := by
  cases lineEnd with
  | lf => rfl
  | crlf => rfl
  | cr =>
      cases text with
      | nil => rfl
      | cons c text =>
          have hc : c ≠ 0x0a := by
            simpa using h
          simp [LineEnd.octets, dropLineEnd?, hc]

theorem dropFinalLineEnd?_append (lineEnd : LineEnd) (h : text.getLast? ≠ some 0x0d) :
    dropFinalLineEnd? (text ++ lineEnd.octets) = some text := by
  rw [← List.head?_reverse] at h
  cases hreverse : text.reverse with
  | nil =>
      rw [List.reverse_eq_nil_iff] at hreverse
      subst hreverse
      cases lineEnd <;> rfl
  | cons c front =>
      have hc : c ≠ 0x0d := by
        simpa [hreverse] using h
      have htext : text = (c :: front).reverse := by
        rw [← hreverse, List.reverse_reverse]
      cases lineEnd <;> simp [dropFinalLineEnd?, LineEnd.octets, hc, htext]

/-- A text that ends in no line end is left as it is. -/
theorem dropFinalLineEnd?_eq_none (h : text.getLast? = some c) (hlf : c ≠ 0x0a) (hcr : c ≠ 0x0d) :
    dropFinalLineEnd? text = none := by
  rw [← List.head?_reverse] at h
  cases hreverse : text.reverse with
  | nil => simp [hreverse] at h
  | cons d front =>
      have hd : d = c := by
        simpa [hreverse] using h
      simp [dropFinalLineEnd?, hreverse, hd, hlf, hcr]

/-! ## Rows -/

/-- The number of octets that a line holds. -/
abbrev rowLength : Nat := 48

/-- Octets in rows. -/
def rows (data : Bytes) : List Bytes :=
  match data with
  | [] => []
  | b :: bs => (b :: bs).take rowLength :: rows ((b :: bs).drop rowLength)
termination_by data.length
decreasing_by
  simp only [List.length_drop, List.length_cons, rowLength]
  omega

/-- Rows of which none is empty and only the last may be shorter than the others. -/
inductive Rows : List Bytes → Prop where
  | last {row : Bytes} : row ≠ [] → row.length ≤ rowLength → Rows [row]
  | cons {row : Bytes} {more : List Bytes} : row.length = rowLength → Rows more →
      Rows (row :: more)

theorem flatten_rows (data : Bytes) : (rows data).flatten = data := by
  fun_induction rows data with
  | case1 => rfl
  | case2 b bs ih => rw [List.flatten_cons, ih, List.take_append_drop]

theorem rows_of_ne_nil {data : Bytes} (h : data ≠ []) : Rows (rows data) := by
  fun_induction rows data with
  | case1 => exact absurd rfl h
  | case2 b bs ih =>
      by_cases hrest : (b :: bs).drop rowLength = []
      · rw [hrest, rows]
        exact .last (by simp) (List.length_take_le _ _)
      -- Octets are left over only behind a whole row.
      · have hlength := List.length_pos_iff.2 hrest
        rw [List.length_drop] at hlength
        refine .cons ?_ (ih hrest)
        rw [List.length_take]
        omega

/-! ## Writing -/

def opening (label : String) : Bytes :=
  beginMark ++ ascii label ++ boundary

def closing (label : String) : Bytes :=
  endMark ++ ascii label ++ boundary

/-- The lines of Base64, each with its line end. -/
def linesOf (lineEnd : LineEnd) (rows : List Bytes) : Bytes :=
  rows.flatMap fun row => Base64.encode row ++ lineEnd.octets

/-- Octets in a text with a label, in lines with these ends. -/
def encodeWith (lineEnd : LineEnd) (label : String) (data : Bytes) : Bytes :=
  opening label ++ lineEnd.octets ++ linesOf lineEnd (rows data) ++ closing label ++ lineEnd.octets

theorem encode_take_append_drop (data : Bytes) :
    Base64.encode (data.take rowLength) ++ Base64.encode (data.drop rowLength) =
      Base64.encode data := by
  rcases Nat.le_total rowLength data.length with hle | hle
  · have hlength : (data.take rowLength).length = rowLength := by
      rw [List.length_take]
      exact Nat.min_eq_left hle
    have hgroups : (data.take rowLength).length % 3 = 0 := by
      rw [hlength]
      rfl
    rw [← Base64.encode_append hgroups, List.take_append_drop]
  · rw [List.take_of_length_le hle, List.drop_of_length_le hle]
    exact List.append_nil _

theorem length_encode_of_row {row : Bytes} (h : row.length = rowLength) :
    (Base64.encode row).length = lineLength := by
  rw [Base64.length_encode, h]
  rfl

theorem length_encode_le {row : Bytes} (h : row.length ≤ rowLength) :
    (Base64.encode row).length ≤ lineLength := by
  rw [Base64.length_encode, lineLength]
  rw [rowLength] at h
  omega

theorem wrap_of_ne_nil (h : text ≠ []) :
    wrap text = text.take lineLength ++ lf :: wrap (text.drop lineLength) := by
  cases text with
  | nil => exact absurd rfl h
  | cons c text => rw [wrap]

theorem encode_ne_nil {data : Bytes} (h : data ≠ []) : Base64.encode data ≠ [] := by
  have hpos := List.length_pos_iff.2 h
  rw [← List.length_pos_iff, Base64.length_encode]
  omega

/-- The first line holds the first row, and the other lines what is left. -/
theorem take_and_drop_encode (data : Bytes) :
    (Base64.encode data).take lineLength = Base64.encode (data.take rowLength) ∧
      (Base64.encode data).drop lineLength = Base64.encode (data.drop rowLength) := by
  rw [← encode_take_append_drop]
  rcases Nat.le_total rowLength data.length with hle | hle
  · have hlength : (Base64.encode (data.take rowLength)).length = lineLength :=
      length_encode_of_row (by rw [List.length_take]; exact Nat.min_eq_left hle)
    exact ⟨List.take_left' hlength, List.drop_left' hlength⟩
  -- A last row that is shorter fills no more than one line.
  · have hlength := length_encode_le (List.length_take_le rowLength data)
    rw [List.drop_of_length_le hle]
    simp [Base64.encode, List.take_of_length_le hlength, hlength]

theorem wrap_encode (data : Bytes) : wrap (Base64.encode data) = linesOf .lf (rows data) := by
  fun_induction rows data with
  | case1 => rw [Base64.encode, wrap]; rfl
  | case2 b bs ih =>
      have hne : Base64.encode (b :: bs) ≠ [] := encode_ne_nil (List.cons_ne_nil b bs)
      rcases take_and_drop_encode (b :: bs) with ⟨htake, hdrop⟩
      rw [wrap_of_ne_nil hne, htake, hdrop, ih]
      simp [linesOf, LineEnd.octets]

theorem encode_eq (label : String) (data : Bytes) :
    encode label data = encodeWith .lf label data := by
  simp [encode, encodeWith, opening, closing, wrap_encode, LineEnd.octets]

/-! ## Reading -/

theorem ne_of_isTextual (h : Base64.isTextual c = true) : c ≠ 0x0a ∧ c ≠ 0x0d ∧ c ≠ 0x2d := by
  refine ⟨?_, ?_, ?_⟩ <;> rintro rfl <;> revert h <;> decide

/-- A text that is made of lines: it begins and ends with a character of Base64. -/
structure Framed (text : Bytes) : Prop where
  head : ∃ c, text.head? = some c ∧ Base64.isTextual c = true
  last : ∃ c, text.getLast? = some c ∧ Base64.isTextual c = true

namespace Framed

theorem dropLineEnd?_eq (h : Framed text) (lineEnd : LineEnd) :
    dropLineEnd? (lineEnd.octets ++ text) = some text := by
  rcases h.head with ⟨c, hhead, hc⟩
  refine dropLineEnd?_append lineEnd ?_
  rw [hhead]
  simpa using (ne_of_isTextual hc).1

end Framed

theorem framed_encode {row : Bytes} (h : row ≠ []) : Framed (Base64.encode row) where
  head := by
    have hne := encode_ne_nil h
    exact ⟨_, List.head?_eq_some_head hne, Base64.isTextual_of_mem_encode (List.head_mem hne)⟩
  last := by
    have hne := encode_ne_nil h
    exact ⟨_, List.getLast?_eq_some_getLast hne,
      Base64.isTextual_of_mem_encode (List.getLast_mem hne)⟩

theorem ne_nil_of_length {row : Bytes} (h : row.length = rowLength) : row ≠ [] := by
  rintro rfl
  cases h

theorem exists_line_ne_nil {rows : List Bytes} (h : Rows rows) :
    ∃ row ∈ rows, Base64.encode row ≠ [] := by
  cases h with
  | last hne hlength => exact ⟨_, List.mem_cons_self, encode_ne_nil hne⟩
  | cons hlength hmore =>
      exact ⟨_, List.mem_cons_self, encode_ne_nil (ne_nil_of_length hlength)⟩

/-- Lines with their line ends in between. -/
def joined (lineEnd : LineEnd) (rows : List Bytes) : Bytes :=
  List.intercalate lineEnd.octets (rows.map Base64.encode)

theorem joined_cons (lineEnd : LineEnd) (row : Bytes) {rows : List Bytes} (h : Rows rows) :
    joined lineEnd (row :: rows) =
      Base64.encode row ++ (lineEnd.octets ++ joined lineEnd rows) := by
  cases h <;> simp [joined, List.intercalate_cons_cons]

theorem Framed.append {front middle : Bytes} (hfront : Framed front) (htext : Framed text) :
    Framed (front ++ (middle ++ text)) where
  head := by
    rcases hfront.head with ⟨c, hhead, hc⟩
    exact ⟨c, by simp [List.head?_append, hhead], hc⟩
  last := by
    rcases htext.last with ⟨c, hlast, hc⟩
    exact ⟨c, by simp [List.getLast?_append, hlast], hc⟩

theorem framed_joined (lineEnd : LineEnd) {rows : List Bytes} (h : Rows rows) :
    Framed (joined lineEnd rows) := by
  induction h with
  | @last row hne hlength => simpa [joined] using framed_encode hne
  | @cons row more hlength hmore ih =>
      rw [joined_cons lineEnd row hmore]
      exact (framed_encode (ne_nil_of_length hlength)).append ih

theorem linesOf_eq (lineEnd : LineEnd) {rows : List Bytes} (h : Rows rows) :
    linesOf lineEnd rows = joined lineEnd rows ++ lineEnd.octets := by
  induction h with
  | last hne hlength => simp [linesOf, joined]
  | @cons row more hlength hmore ih =>
      calc linesOf lineEnd (row :: more)
        _ = Base64.encode row ++ lineEnd.octets ++ linesOf lineEnd more := List.flatMap_cons
        _ = joined lineEnd (row :: more) ++ lineEnd.octets := by
            rw [ih, joined_cons lineEnd row hmore]
            simp

theorem lines?_of_length_le (h : text ≠ []) (hlength : text.length ≤ lineLength) :
    lines? text = some [(dropFinalLineEnd? text).getD text] := by
  cases text with
  | nil => exact absurd rfl h
  | cons c cs =>
      have hdrop : (c :: cs).drop lineLength = [] := List.drop_of_length_le hlength
      rw [lines?.eq_def]
      dsimp only
      split
      · rfl
      · next hrest => cases hdrop.symm.trans hrest

theorem lines?_append {line rest rest' : Bytes} (hlength : line.length = lineLength)
    (h : dropLineEnd? rest = some rest') :
    lines? (line ++ rest) = (lines? rest').map (line :: ·) := by
  have htake : (line ++ rest).take lineLength = line := List.take_left' hlength
  have hdrop : (line ++ rest).drop lineLength = rest := List.drop_left' hlength
  cases htext : line ++ rest with
  | nil => simp_all
  | cons c cs =>
      rw [htext] at htake hdrop
      rw [lines?.eq_def]
      dsimp only
      split
      · next hnil => cases (hnil.symm.trans hdrop) ▸ h
      · next hsome =>
        rw [← hsome.symm.trans hdrop] at h
        split
        · next hnone => cases hnone.symm.trans h
        · next hfound => rw [Option.some.inj (hfound.symm.trans h), htake]

/-- The lines of a text with line ends in between are found again. -/
theorem lines?_joined (lineEnd : LineEnd) {rows : List Bytes} (h : Rows rows) :
    lines? (joined lineEnd rows) = some (rows.map Base64.encode) := by
  induction h with
  | @last row hne hlength =>
      rcases (framed_encode hne).last with ⟨c, hlast, hc⟩
      have hfinal : dropFinalLineEnd? (Base64.encode row) = none :=
        dropFinalLineEnd?_eq_none hlast (ne_of_isTextual hc).1 (ne_of_isTextual hc).2.1
      have hlines := lines?_of_length_le (encode_ne_nil hne) (length_encode_le hlength)
      simpa [joined, hfinal] using hlines
  | @cons row more hlength hmore ih =>
      have hend := (framed_joined lineEnd hmore).dropLineEnd?_eq lineEnd
      rw [joined_cons lineEnd row hmore, lines?_append (length_encode_of_row hlength) hend, ih]
      rfl

/-- The lines of rows are read back as the rows. -/
theorem decodeLines?_map {rows : List Bytes} (h : Rows rows) :
    decodeLines? (rows.map Base64.encode) = some rows.flatten := by
  induction h with
  | last hne hlength => simp [decodeLines?, Base64.decode?_encode]
  | @cons row more hlength hmore ih =>
      have hgroups : row.length % 3 = 0 := by
        rw [hlength]
        rfl
      have hwhole := Base64.decodeWhole?_encode hgroups
      cases hmore <;> simp_all [decodeLines?]

theorem getLast?_closing (front : Bytes) (label : String) :
    (front ++ closing label).getLast? = some 0x2d := by
  have hboundary : boundary.getLast? = some 0x2d := by
    decide
  simp [closing, List.getLast?_append, hboundary]

/-- Between the boundary lines stand the lines of Base64, the last one without its line end. -/
theorem body?_encodeWith (lineEnd : LineEnd) (label : String) {data : Bytes} (h : data ≠ []) :
    body? label (encodeWith lineEnd label data) = some (joined lineEnd (rows data)) := by
  have hrows := rows_of_ne_nil h
  have hframed := framed_joined lineEnd hrows
  let inner := lineEnd.octets ++ linesOf lineEnd (rows data)
  -- The text is read from its front, then from its end.
  have hpreamble : dropPreamble? (encodeWith lineEnd label data) =
      some (ascii label ++ boundary ++ (inner ++ closing label ++ lineEnd.octets)) := by
    have htext : encodeWith lineEnd label data =
        beginMark ++ (ascii label ++ boundary ++ (inner ++ closing label ++ lineEnd.octets)) := by
      simp [encodeWith, opening, inner]
    rw [htext, dropPreamble?, List.isPrefixOf?_eq_some_iff_append_eq.2 rfl]
  have hfront : (ascii label ++ boundary).isPrefixOf?
      (ascii label ++ boundary ++ (inner ++ closing label ++ lineEnd.octets)) =
        some (inner ++ closing label ++ lineEnd.octets) :=
    List.isPrefixOf?_eq_some_iff_append_eq.2 rfl
  have hend : dropFinalLineEnd? (inner ++ closing label ++ lineEnd.octets) =
      some (inner ++ closing label) := by
    refine dropFinalLineEnd?_append lineEnd ?_
    rw [getLast?_closing]
    decide
  have hsuffix : (closing label).isSuffixOf? (inner ++ closing label) = some inner :=
    List.isSuffixOf?_eq_some_iff_append_eq.2 rfl
  have hinner : dropFinalLineEnd? inner = some (lineEnd.octets ++ joined lineEnd (rows data)) := by
    rcases hframed.last with ⟨c, hlast, hc⟩
    have htext : inner = lineEnd.octets ++ joined lineEnd (rows data) ++ lineEnd.octets := by
      simp [inner, linesOf_eq lineEnd hrows]
    rw [htext]
    refine dropFinalLineEnd?_append lineEnd ?_
    simpa [List.getLast?_append, hlast] using (ne_of_isTextual hc).2.1
  have hclosing : endMark ++ ascii label ++ boundary = closing label := rfl
  simp only [body?, hpreamble, hfront, hend, hclosing, hsuffix, hinner, bind, Option.bind_some,
    Option.getD_some]
  exact hframed.dropLineEnd?_eq lineEnd

/-- A text that was written is read back. -/
theorem decode?_encodeWith (lineEnd : LineEnd) (label : String) {data : Bytes} (h : data ≠ []) :
    decode? label (encodeWith lineEnd label data) = some data := by
  have hrows := rows_of_ne_nil h
  have hsome := exists_line_ne_nil hrows
  simp [decode?, body?_encodeWith lineEnd label h, lines?_joined lineEnd hrows, hsome,
    decodeLines?_map hrows, flatten_rows]

theorem decode?_encode (label : String) {data : Bytes} (h : data ≠ []) :
    decode? label (encode label data) = some data := by
  rw [encode_eq]
  exact decode?_encodeWith .lf label h

end SecureBoot.Pem
