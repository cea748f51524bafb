import SecureBoot.Bytes

/-!
# UTF-8

* `Utf8.encode` gives the octets of a text.
* `Utf8.decode?` gives the characters that an octet string stands for, if it is well-formed: every
  character in its shortest form, and no surrogates.
-/

namespace SecureBoot.Utf8

def encode (text : String) : Bytes :=
  text.toByteArray.data.toList

/-- The value of an octet that continues a character. -/
def continuation? (b : UInt8) : Option Nat :=
  if 0x80 ≤ b.toNat ∧ b.toNat < 0xc0 then some (b.toNat - 0x80) else none

/-- The character with a code point, if it is one and not below a bound. -/
def character? (least code : Nat) : Option Char :=
  if h : code.isValidChar then
    if least ≤ code then some ⟨UInt32.ofNat code, by
      have hlt : code < 2 ^ 32 := by
        rcases h with h | h <;> omega
      show (UInt32.ofNat code).toNat.isValidChar
      rwa [UInt32.toNat_ofNat_of_lt' hlt]⟩
    else none
  else none

/-- What the first octet of a character says: how many octets follow it, the bits of the code point
that it holds, and the least code point that needs so many octets. -/
def lead? (a : UInt8) : Option (Nat × Nat × Nat) :=
  let n := a.toNat
  if n < 0x80 then some (0, n, 0)
  -- An octet that continues a character starts none.
  else if n < 0xc0 then none
  else if n < 0xe0 then some (1, n - 0xc0, 0x80)
  else if n < 0xf0 then some (2, n - 0xe0, 0x800)
  else some (3, n - 0xf0, 0x10000)

/-- A code point continued by `n` octets, and what follows them. -/
def takeContinuations : Nat → Nat → Bytes → Option (Nat × Bytes)
  | 0, code, bs => some (code, bs)
  | n + 1, code, b :: bs =>
    match continuation? b with
    | some bits => takeContinuations n (64 * code + bits) bs
    | none => none
  | _ + 1, _, [] => none

/-- The first character of a string, and what follows it. -/
def takeCharacter : Bytes → Option (Char × Bytes)
  | [] => none
  | a :: bs =>
    match lead? a with
    | none => none
    | some (count, code, least) =>
      match takeContinuations count code bs with
      | none => none
      | some (code, rest) => (character? least code).map (·, rest)

theorem length_of_takeContinuations {n code code' : Nat} {bs rest : Bytes}
    (h : takeContinuations n code bs = some (code', rest)) : rest.length ≤ bs.length := by
  fun_induction takeContinuations n code bs with
  | case1 =>
    simp only [Option.some.injEq, Prod.mk.injEq] at h
    simp [h.2]
  | case2 n code b bs bits hbits ih =>
    have := ih h
    simp only [List.length_cons]
    omega
  | case3 => cases h
  | case4 => cases h

theorem length_of_takeCharacter {bs rest : Bytes} {c : Char}
    (h : takeCharacter bs = some (c, rest)) : rest.length < bs.length := by
  fun_cases takeCharacter bs with
  | case1 => simp [takeCharacter] at h
  | case2 a bs hlead => simp [takeCharacter, hlead] at h
  | case3 a bs count code least hlead hnone => simp [takeCharacter, hlead, hnone] at h
  | case4 a bs count code least hlead code' rest' hrest =>
    have := length_of_takeContinuations hrest
    simp only [takeCharacter, hlead, hrest, Option.map_eq_some_iff, Prod.mk.injEq] at h
    obtain ⟨_, -, -, rfl⟩ := h
    simp only [List.length_cons]
    omega

/-- The characters of a string after the given ones, the latest first. -/
def decodeAfter (text : List Char) (bs : Bytes) : Option (List Char) :=
  match bs with
  | [] => some text.reverse
  | b :: bs =>
    match _h : takeCharacter (b :: bs) with
    | none => none
    | some (c, rest) => decodeAfter (c :: text) rest
termination_by bs.length
decreasing_by exact length_of_takeCharacter _h

def decode? (bs : Bytes) : Option (List Char) :=
  decodeAfter [] bs

end SecureBoot.Utf8
