/-!
# Blanks

The characters with the Unicode property `White_Space`, and the text that is left without those at
its front.
-/

namespace SecureBoot

/-- Whether a character has the property `White_Space`. -/
def isBlank (c : Char) : Bool :=
  let n := c.toNat
  decide ((0x09 ≤ n ∧ n ≤ 0x0d) ∨ n = 0x20 ∨ n = 0x85 ∨ n = 0xa0 ∨ n = 0x1680 ∨
    (0x2000 ≤ n ∧ n ≤ 0x200a) ∨ n = 0x2028 ∨ n = 0x2029 ∨ n = 0x202f ∨ n = 0x205f ∨ n = 0x3000)

/-- The text without the blanks at its front. -/
def trimStart (text : List Char) : List Char :=
  text.dropWhile isBlank

end SecureBoot
