import SecureBoot.Pem.Base64

/-!
# PEM

The textual encoding of RFC 7468: Base64 between two boundary lines that name what is encoded.

* `Pem.decode?` reads a text with a given label.  Text in front of the first boundary is admitted,
  and so are the three usual line ends, but all lines of Base64 except the last have 64
  characters.
* `Pem.encode` writes such a text.
-/

namespace SecureBoot.Pem

def ascii (text : String) : Bytes :=
  text.toList.map fun c => UInt8.ofNat c.toNat

/-! ## Lines -/

abbrev lf : UInt8 := 0x0a

/-- What follows the line end at the front of a text. -/
def dropLineEnd? : Bytes → Option Bytes
  | 0x0d :: 0x0a :: rest => some rest
  | 0x0d :: rest => some rest
  | 0x0a :: rest => some rest
  | _ => none

/-- What precedes the line end at the end of a text. -/
def dropFinalLineEnd? (text : Bytes) : Option Bytes :=
  match text.reverse with
  | 0x0a :: 0x0d :: rest => some rest.reverse
  | 0x0a :: rest => some rest.reverse
  | 0x0d :: rest => some rest.reverse
  | _ => none

/-- The number of characters of a line of Base64. -/
abbrev lineLength : Nat := 64

theorem length_of_dropLineEnd? {text rest : Bytes} (h : dropLineEnd? text = some rest) :
    rest.length < text.length := by
  fun_cases dropLineEnd? text with
  | case1 =>
    simp only [dropLineEnd?, Option.some.injEq] at h
    simp only [← h, List.length_cons]
    omega
  | case2 rest' hcr =>
    rw [dropLineEnd?, Option.some.injEq] at h
    · simp [← h]
    · exact hcr
  | case3 =>
    simp only [dropLineEnd?, Option.some.injEq] at h
    simp [← h]
  | case4 _ h1 h2 h3 => simp_all [dropLineEnd?]

/-- The lines of a Base64 text: whole lines, and one that may be shorter and need not end. -/
def lines? (text : Bytes) : Option (List Bytes) :=
  match text with
  | [] => some []
  | c :: cs =>
    match _hdrop : (c :: cs).drop lineLength with
    | [] => some [(dropFinalLineEnd? (c :: cs)).getD (c :: cs)]
    | b :: bs =>
      match _hend : dropLineEnd? (b :: bs) with
      | none => none
      | some rest => (lines? rest).map ((c :: cs).take lineLength :: ·)
termination_by text.length
decreasing_by
  have hend := length_of_dropLineEnd? _hend
  have hdrop := congrArg List.length _hdrop
  simp only [List.length_drop] at hdrop
  omega

/-- The octets of the lines of a Base64 text. -/
def decodeLines? : List Bytes → Option Bytes
  | [] => none
  | [line] => Base64.decode? line
  | line :: more => do return (← Base64.decodeWhole? line) ++ (← decodeLines? more)

/-! ## Boundaries -/

def boundary : Bytes := ascii "-----"

def beginMark : Bytes := ascii "-----BEGIN "

def endMark : Bytes := ascii "-----END "

/-- What follows the mark of the first boundary, which starts the text or one of its lines. -/
def dropPreamble? (text : Bytes) : Option Bytes :=
  match beginMark.isPrefixOf? text with
  | some rest => some rest
  | none => search text
where
  /-- The same behind a line end; a zero octet ends the search. -/
  search : Bytes → Option Bytes
    | [] => none
    | c :: rest =>
      if c = 0 then none
      else
        match if c = lf then beginMark.isPrefixOf? rest else none with
        | some rest => some rest
        | none => search rest

/-- The text between the boundary lines with a label. -/
def body? (label : String) (text : Bytes) : Option Bytes := do
  let text ← (ascii label ++ boundary).isPrefixOf? (← dropPreamble? text)
  let text := (dropFinalLineEnd? text).getD text
  let text ← (endMark ++ ascii label ++ boundary).isSuffixOf? text
  dropLineEnd? (← dropFinalLineEnd? text)

/-- The octets that a text with a label encodes. -/
def decode? (label : String) (text : Bytes) : Option Bytes := do
  let lines ← lines? (← body? label text)
  if lines.all List.isEmpty then none else decodeLines? lines

/-! ## Writing -/

/-- A text in lines, each with its line end. -/
def wrap (text : Bytes) : Bytes :=
  match text with
  | [] => []
  | c :: cs =>
    (c :: cs).take lineLength ++ lf :: wrap ((c :: cs).drop lineLength)
termination_by text.length
decreasing_by
  simp only [List.length_drop, List.length_cons, lineLength]
  omega

def encode (label : String) (data : Bytes) : Bytes :=
  beginMark ++ ascii label ++ boundary ++ lf :: wrap (Base64.encode data) ++
    endMark ++ ascii label ++ boundary ++ [lf]

end SecureBoot.Pem
