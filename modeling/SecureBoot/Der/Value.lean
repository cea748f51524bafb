import SecureBoot.Arithmetic
import SecureBoot.Der.Element

/-!
# DER values

What single elements stand for: numbers, truth values, bit strings, object identifiers and algorithm
identifiers.  Every reader admits the distinguished form only.

* `Der.Element.uint?` reads a natural number and `Der.Element.ofUint` writes one.
* `Der.Algorithm.ofElement?` reads an algorithm identifier and `Der.Algorithm.toElement` writes one.
-/

namespace SecureBoot.Der

/-! ## Numbers -/

/-- The natural number that a content is: in the fewest octets, and not negative. -/
def uint? : Bytes → Option Nat
  | [] => none
  | [b] => if b.toNat < 0x80 then some b.toNat else none
  -- A zero octet stands in front only if the number would look negative without it.
  | b :: c :: rest =>
    if b.toNat < 0x80 ∧ (b ≠ 0 ∨ 0x80 ≤ c.toNat) then some (bigEndian (b :: c :: rest)) else none

/-- Whether a content is a number of either sign, in the fewest octets. -/
def isInteger : Bytes → Bool
  | [] => false
  | [_] => true
  | b :: c :: _ =>
    decide (¬(b = 0 ∧ c.toNat < 0x80) ∧ ¬(b = 0xff ∧ 0x80 ≤ c.toNat))

/-- The content that a natural number is written as. -/
def encodeUint (n : Nat) : Bytes :=
  bigEndianBytes (bitLength n / 8 + 1) n

/-! ## Bit strings -/

/-- The octets of a bit string and the number of bits that its last octet lacks. -/
structure BitString where
  unused : Nat
  octets : Bytes
  deriving DecidableEq, Repr

def BitString.ofContent? : Bytes → Option BitString
  | [] => none
  | unused :: octets =>
    if unused.toNat ≤ 7 ∧ (unused = 0 ∨ octets ≠ []) then some ⟨unused.toNat, octets⟩ else none

/-- The octets of a bit string that fills them all. -/
def BitString.whole? (bits : BitString) : Option Bytes :=
  if bits.unused = 0 then some bits.octets else none

/-! ## Object identifiers -/

/-- The name of an algorithm or an attribute, as it is written. -/
abbrev ObjectIdentifier := Bytes

/-- Whether octets are a sequence of numbers in base 128, each ending with its first octet below 128
and holding at most 32 bits; `count` octets of the first number have been seen already. -/
def areArcs (count : Nat) : Bytes → Bool
  | [] => count == 0
  | b :: bs =>
    -- The fifth octet has room for four bits.
    if 4 ≤ count ∧ 0x10 ≤ b.toNat then false
    else areArcs (if b.toNat < 0x80 then 0 else count + 1) bs

/-- The object identifier that a content is: between 3 and 39 octets, of which the first stands for
two numbers. -/
def objectIdentifier? (content : Bytes) : Option ObjectIdentifier :=
  match content with
  | first :: rest =>
    if 3 ≤ content.length ∧ content.length ≤ 39 ∧ first.toNat < 120 ∧ areArcs 0 rest = true then
      some content
    else none
  | [] => none

/-! ## Elements with these contents -/

namespace Element

def uint? (e : Element) : Option Nat :=
  (e.content? Tag.integer).bind Der.uint?

def ofUint (n : Nat) : Element :=
  ⟨Tag.integer, encodeUint n⟩

def bitString? (e : Element) : Option BitString :=
  (e.content? Tag.bitString).bind BitString.ofContent?

def ofBitString (bits : BitString) : Element :=
  ⟨Tag.bitString, UInt8.ofNat bits.unused :: bits.octets⟩

def objectIdentifier? (e : Element) : Option ObjectIdentifier :=
  (e.content? Tag.objectIdentifier).bind Der.objectIdentifier?

/-- A truth value, for which only two octets may stand. -/
def boolean? (e : Element) : Option Bool :=
  match e.content? Tag.boolean with
  | some [0xff] => some true
  | some [0x00] => some false
  | _ => none

/-- The element that says nothing. -/
abbrev null : Element := ⟨Tag.null, []⟩

end Element

/-! ## Algorithms -/

structure Algorithm where
  name : ObjectIdentifier
  parameters : Option Element
  deriving DecidableEq, Repr

namespace Algorithm

def ofElement? (e : Element) : Option Algorithm := do
  match ← e.members? Tag.sequence with
  | [name] => return ⟨← name.objectIdentifier?, none⟩
  | [name, parameters] => return ⟨← name.objectIdentifier?, some parameters⟩
  | _ => none

def toElement (algorithm : Algorithm) : Element :=
  construct Tag.sequence
    (⟨Tag.objectIdentifier, algorithm.name⟩ :: algorithm.parameters.toList)

/-- RSA keys: 1.2.840.113549.1.1.1. -/
def rsaName : ObjectIdentifier := [0x2a, 0x86, 0x48, 0x86, 0xf7, 0x0d, 0x01, 0x01, 0x01]

def rsa : Algorithm := ⟨rsaName, some Element.null⟩

end Algorithm

/-! ## Optional members -/

/-- The member with a context-specific number at the front, and the members after it.  Members with
lower numbers are skipped; one with a higher number, or of another class, ends the search. -/
def takeContext (number : Nat) : List Element → Option Element × List Element
  | [] => (none, [])
  | e :: rest =>
    if ¬Tag.isContext e.tag ∨ number < Tag.number e.tag then (none, e :: rest)
    else if Tag.number e.tag = number then (some e, rest)
    else takeContext number rest

/-- The element that a context-specific one is wrapped around. -/
def Element.unwrap? (e : Element) : Option Element :=
  if Tag.isContext e.tag ∧ Tag.isConstructed e.tag then element? e.content else none

/-- The bit string in an element whose tag stands in place of its own. -/
def Element.implicitBitString? (e : Element) : Option BitString :=
  if Tag.isConstructed e.tag then none else BitString.ofContent? e.content

end SecureBoot.Der
