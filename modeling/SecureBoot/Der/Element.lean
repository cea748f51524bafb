import SecureBoot.Bytes

/-!
# DER elements

The distinguished encoding of ASN.1 is a sequence of elements, each a tag octet, a length and a
content.  The content of a constructed element is again a sequence of elements.

* `Der.takeElement` splits the first element off a string.
* `Der.elements?` splits a whole string into elements.
* `Der.Element.encode` writes an element.

Only tags of one octet are admitted, and lengths only in their shortest form and below `2 ^ 28`.
-/

namespace SecureBoot.Der

structure Element where
  tag : UInt8
  content : Bytes
  deriving DecidableEq, Repr

/-! ## Tags -/

namespace Tag

abbrev boolean : UInt8 := 0x01

abbrev integer : UInt8 := 0x02

abbrev bitString : UInt8 := 0x03

abbrev octetString : UInt8 := 0x04

abbrev null : UInt8 := 0x05

abbrev objectIdentifier : UInt8 := 0x06

abbrev utcTime : UInt8 := 0x17

abbrev generalizedTime : UInt8 := 0x18

abbrev sequence : UInt8 := 0x30

abbrev set : UInt8 := 0x31

/-- The universal tags that may stand in front of an element. -/
def universal : List UInt8 := [
  boolean, integer, bitString, octetString, null, objectIdentifier, 0x09, 0x0a, 0x0c, 0x12, 0x13,
  0x14, 0x15, 0x16, utcTime, generalizedTime, 0x1a, 0x1b, 0x1e, sequence, set]

/-- Whether an octet is a tag: a universal one, or one of another class whose number fits. -/
def isValid (b : UInt8) : Bool :=
  if b.toNat < 0x40 then universal.contains b else decide (b.toNat % 32 ≠ 31)

/-- Whether a tag is of the context-specific class. -/
def isContext (b : UInt8) : Bool :=
  decide (0x80 ≤ b.toNat ∧ b.toNat < 0xc0)

/-- Whether the content of an element with this tag consists of elements. -/
def isConstructed (b : UInt8) : Bool :=
  decide (b.toNat / 32 % 2 = 1)

def number (b : UInt8) : Nat :=
  b.toNat % 32

end Tag

/-! ## Reading -/

def maxLength : Nat := 0x0fffffff

/-- The first `n` octets of a string and what follows them, if there are so many. -/
def takeExactly (n : Nat) (bs : Bytes) : Option (Bytes × Bytes) :=
  let front := bs.take n
  if front.length = n then some (front, bs.drop n) else none

/-- The length at the front of a string, and what follows it. -/
def takeLength : Bytes → Option (Nat × Bytes)
  | [] => none
  | b :: bs =>
    if b.toNat < 0x80 then some (b.toNat, bs)
    else
      let count := b.toNat - 0x80
      if count = 0 ∨ 4 < count then none
      else
        match takeExactly count bs with
        | none => none
        | some (digits, rest) =>
          let length := bigEndian digits
          if 0x80 ≤ length ∧ 1 <<< (8 * (count - 1)) ≤ length ∧ length ≤ maxLength then
            some (length, rest)
          else none

/-- The first element of a string, and what follows it. -/
def takeElement : Bytes → Option (Element × Bytes)
  | [] => none
  | tag :: bs =>
    if Tag.isValid tag then
      match takeLength bs with
      | none => none
      | some (length, bs) =>
        match takeExactly length bs with
        | none => none
        | some (content, rest) => some (⟨tag, content⟩, rest)
    else none

theorem length_of_takeExactly {n : Nat} {bs front rest : Bytes}
    (h : takeExactly n bs = some (front, rest)) : bs.length = n + rest.length := by
  simp only [takeExactly] at h
  split at h
  · next hn =>
    simp only [Option.some.injEq, Prod.mk.injEq] at h
    simp only [← h.2, List.length_drop]
    rw [List.length_take] at hn
    omega
  · cases h

theorem length_of_takeLength {bs rest : Bytes} {length : Nat}
    (h : takeLength bs = some (length, rest)) : rest.length < bs.length := by
  cases bs with
  | nil => simp [takeLength] at h
  | cons b bs =>
    simp only [takeLength] at h
    split at h
    · simp only [Option.some.injEq, Prod.mk.injEq] at h
      simp [← h.2]
    · split at h
      · cases h
      · split at h
        · cases h
        · next hdigits =>
          have := length_of_takeExactly hdigits
          split at h
          · simp only [Option.some.injEq, Prod.mk.injEq] at h
            simp only [← h.2, List.length_cons]
            omega
          · cases h

/-- What follows an element is shorter than the string. -/
theorem length_of_takeElement {bs rest : Bytes} {e : Element}
    (h : takeElement bs = some (e, rest)) : rest.length < bs.length := by
  cases bs with
  | nil => simp [takeElement] at h
  | cons tag bs =>
    simp only [takeElement] at h
    split at h
    · split at h
      · cases h
      · next hlength =>
        split at h
        · cases h
        · next hcontent =>
          have := length_of_takeLength hlength
          have := length_of_takeExactly hcontent
          simp only [Option.some.injEq, Prod.mk.injEq] at h
          simp only [← h.2, List.length_cons]
          omega
    · cases h

def elements? (bs : Bytes) : Option (List Element) :=
  match bs with
  | [] => some []
  | b :: bs =>
    match _h : takeElement (b :: bs) with
    | none => none
    | some (e, rest) => (elements? rest).map (e :: ·)
termination_by bs.length
decreasing_by exact length_of_takeElement _h

def element? (bs : Bytes) : Option Element :=
  match takeElement bs with
  | some (e, []) => some e
  | _ => none

namespace Element

/-- The content of an element with a given tag. -/
def content? (tag : UInt8) (e : Element) : Option Bytes :=
  if e.tag = tag then some e.content else none

/-- The elements inside an element with a given tag. -/
def members? (tag : UInt8) (e : Element) : Option (List Element) :=
  (e.content? tag).bind elements?

end Element

/-! ## Writing -/

/-- A length in its shortest form, for lengths below `2 ^ 32`. -/
def encodeLength (n : Nat) : Bytes :=
  if n < 0x80 then [UInt8.ofNat n]
  else if n < 0x100 then 0x81 :: bigEndianBytes 1 n
  else if n < 0x10000 then 0x82 :: bigEndianBytes 2 n
  else if n < 0x1000000 then 0x83 :: bigEndianBytes 3 n
  else 0x84 :: bigEndianBytes 4 n

def Element.encode (e : Element) : Bytes :=
  e.tag :: encodeLength e.content.length ++ e.content

def construct (tag : UInt8) (members : List Element) : Element :=
  ⟨tag, members.flatMap Element.encode⟩

theorem takeExactly_append (front rest : Bytes) :
    takeExactly front.length (front ++ rest) = some (front, rest) := by
  simp [takeExactly]

end SecureBoot.Der
