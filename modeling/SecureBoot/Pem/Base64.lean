import SecureBoot.Bytes

/-!
# Base64

The alphabet and the padding of RFC 4648, section 4, over octet strings.

* `Base64.decode?` reads a text with its padding; the bits that padding stands for must be zero.
* `Base64.decodeWhole?` reads a text that needs no padding.
* `Base64.encode` writes a text with its padding.
-/

namespace SecureBoot.Base64

def value? (c : UInt8) : Option Nat :=
  let n := c.toNat
  if 0x41 ≤ n ∧ n ≤ 0x5a then some (n - 0x41)
  else if 0x61 ≤ n ∧ n ≤ 0x7a then some (n - 0x61 + 26)
  else if 0x30 ≤ n ∧ n ≤ 0x39 then some (n - 0x30 + 52)
  else if n = 0x2b then some 62
  else if n = 0x2f then some 63
  else none

/-- The digit for a number below 64. -/
def digit (n : Nat) : UInt8 :=
  UInt8.ofNat <|
    if n < 26 then n + 0x41
    else if n < 52 then n - 26 + 0x61
    else if n < 62 then n - 52 + 0x30
    else if n = 62 then 0x2b
    else 0x2f

def pad : UInt8 := 0x3d

/-- The three octets of a group of four digits. -/
def group? (a b c d : UInt8) : Option Bytes := do
  let n := ((← value? a) * 64 + (← value? b)) * 4096 + (← value? c) * 64 + (← value? d)
  return bigEndianBytes 3 n

/-- The octets of groups without padding. -/
def decodeWhole? : Bytes → Option Bytes
  | [] => some []
  | a :: b :: c :: d :: rest => do return (← group? a b c d) ++ (← decodeWhole? rest)
  | _ => none

/-- The octets of a last group: three, or fewer if it is padded. -/
def lastGroup? (a b c d : UInt8) : Option Bytes :=
  if d ≠ pad then group? a b c d
  else if c ≠ pad then do
    -- Three digits are 18 bits, of which two are too many.
    let n := ((← value? a) * 64 + (← value? b)) * 64 + (← value? c)
    if n % 4 = 0 then return bigEndianBytes 2 (n / 4) else none
  else do
    -- Two digits are 12 bits, of which four are too many.
    let n := (← value? a) * 64 + (← value? b)
    if n % 16 = 0 then return bigEndianBytes 1 (n / 16) else none

def decode? : Bytes → Option Bytes
  | [] => some []
  | [a, b, c, d] => lastGroup? a b c d
  | a :: b :: c :: d :: rest => do return (← group? a b c d) ++ (← decode? rest)
  | _ => none

def encode : Bytes → Bytes
  | a :: b :: c :: rest =>
    let n := bigEndian [a, b, c]
    digit (n / 262144) :: digit (n / 4096 % 64) :: digit (n / 64 % 64) :: digit (n % 64) ::
      encode rest
  | [a, b] =>
    let n := bigEndian [a, b] * 4
    [digit (n / 4096), digit (n / 64 % 64), digit (n % 64), pad]
  | [a] =>
    let n := a.toNat * 16
    [digit (n / 64), digit (n % 64), pad, pad]
  | [] => []

end SecureBoot.Base64
