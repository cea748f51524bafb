import SecureBoot.Pem.Base64
import SecureBoot.Proofs.ByteOrder

/-!
# Base64 — octets that were written are read back

* `decode?_encode`: the padded form of a string is read back.
* `decodeWhole?_encode`: so is the form without padding, which strings of whole groups have.
* `encode_append`: such a string is written in front of another one as if it stood alone.
* `isTextual_of_mem_encode`: what is written consists of digits and padding.
-/

namespace SecureBoot.Base64

/-! ## Digits -/

theorem value?_digit : ∀ n < 64, value? (digit n) = some n := by
  decide

theorem digit_ne_pad : ∀ n < 64, digit n ≠ pad := by
  decide

/-- Whether an octet may stand in a text: a digit or padding. -/
def isTextual (c : UInt8) : Bool :=
  (value? c).isSome || c == pad

theorem isTextual_digit : ∀ n < 64, isTextual (digit n) = true := by
  decide

/-! ## Groups -/

theorem bigEndian_triple_lt (a b c : UInt8) : bigEndian [a, b, c] < 256 ^ 3 := by
  simpa [bigEndian] using littleEndian_lt [c, b, a]

theorem bigEndian_pair_lt (a b : UInt8) : bigEndian [a, b] < 256 ^ 2 := by
  simpa [bigEndian] using littleEndian_lt [b, a]

theorem group?_digits (a b c : UInt8) :
    group? (digit (bigEndian [a, b, c] / 262144)) (digit (bigEndian [a, b, c] / 4096 % 64))
        (digit (bigEndian [a, b, c] / 64 % 64)) (digit (bigEndian [a, b, c] % 64)) =
      some [a, b, c] := by
  have hlt := bigEndian_triple_lt a b c
  have hback := bigEndianBytes_bigEndian [a, b, c]
  generalize bigEndian [a, b, c] = n at hlt hback ⊢
  have hsum : (n / 262144 * 64 + n / 4096 % 64) * 4096 + n / 64 % 64 * 64 + n % 64 = n := by
    omega
  have hfirst : n / 262144 < 64 := by
    omega
  simpa [group?, value?_digit, hfirst, Nat.mod_lt, hsum] using hback

/-- A group without padding is read alone, whether or not it is the last. -/
theorem decode?_cons {d : UInt8} (h : d ≠ pad) (a b c : UInt8) (text : Bytes) :
    decode? (a :: b :: c :: d :: text) =
      (do return (← group? a b c d) ++ (← decode? text) : Option Bytes) := by
  cases text with
  | nil => simp [decode?, lastGroup?, h]
  | cons e text => rw [decode?]; simp

theorem decode?_pair (a b : UInt8) : decode? (encode [a, b]) = some [a, b] := by
  have hlt := bigEndian_pair_lt a b
  have hback := bigEndianBytes_bigEndian [a, b]
  simp only [encode]
  generalize bigEndian [a, b] = n at hlt hback ⊢
  have hsum : (n * 4 / 4096 * 64 + n * 4 / 64 % 64) * 64 + n * 4 % 64 = n * 4 := by
    omega
  have hfirst : n * 4 / 4096 < 64 := by
    omega
  have hlast : digit (n * 4 % 64) ≠ pad := digit_ne_pad _ (Nat.mod_lt _ (by decide))
  simpa [decode?, lastGroup?, value?_digit, hfirst, hlast, Nat.mod_lt, hsum] using hback

theorem decode?_single (a : UInt8) : decode? (encode [a]) = some [a] := by
  have hlt : a.toNat < 256 := a.toNat_lt
  have hback := bigEndianBytes_bigEndian [a]
  have hvalue : bigEndian [a] = a.toNat := by
    simp [bigEndian, littleEndian]
  rw [hvalue] at hback
  simp only [encode]
  generalize a.toNat = n at hlt hback ⊢
  have hsum : n * 16 / 64 * 64 + n * 16 % 64 = n * 16 := by
    omega
  have hfirst : n * 16 / 64 < 64 := by
    omega
  simpa [decode?, lastGroup?, value?_digit, hfirst, Nat.mod_lt, hsum] using hback

/-! ## Strings -/

theorem decode?_encode (data : Bytes) : decode? (encode data) = some data := by
  fun_induction encode data with
  | case1 a b c rest n ih =>
      have hlast : digit (n % 64) ≠ pad := digit_ne_pad _ (Nat.mod_lt _ (by decide))
      simp [decode?_cons hlast, n, group?_digits, ih]
  | case2 a b => exact decode?_pair a b
  | case3 a => exact decode?_single a
  | case4 => rfl

theorem decodeWhole?_encode {data : Bytes} (h : data.length % 3 = 0) :
    decodeWhole? (encode data) = some data := by
  fun_induction encode data with
  | case1 a b c rest n ih =>
      have hrest : rest.length % 3 = 0 := by
        simp only [List.length_cons] at h
        omega
      simp [decodeWhole?, n, group?_digits, ih hrest]
  | case2 a b => cases h
  | case3 a => cases h
  | case4 => rfl

theorem encode_append {data : Bytes} (h : data.length % 3 = 0) (more : Bytes) :
    encode (data ++ more) = encode data ++ encode more := by
  fun_induction encode data with
  | case1 a b c rest n ih =>
      have hrest : rest.length % 3 = 0 := by
        simp only [List.length_cons] at h
        omega
      simp [encode, n, ih hrest]
  | case2 a b => cases h
  | case3 a => cases h
  | case4 => rfl

theorem length_encode (data : Bytes) : (encode data).length = (data.length + 2) / 3 * 4 := by
  fun_induction encode data with
  | case1 a b c rest n ih =>
      simp only [List.length_cons, ih]
      omega
  | case2 a b => simp
  | case3 a => simp
  | case4 => rfl

theorem isTextual_of_mem_encode {data : Bytes} {c : UInt8} (h : c ∈ encode data) :
    isTextual c = true := by
  have hpad : isTextual pad = true := by
    decide
  -- Of the digits of a group only the first needs a bound: the others are remainders.
  have hmod (n : Nat) : isTextual (digit (n % 64)) = true :=
    isTextual_digit _ (Nat.mod_lt n (by decide))
  fun_induction encode data with
  | case1 a b c' rest n ih =>
      have hfirst : isTextual (digit (n / 262144)) = true :=
        isTextual_digit _ (by have := bigEndian_triple_lt a b c'; omega)
      simp only [List.mem_cons] at h
      rcases h with rfl | rfl | rfl | rfl | h
      · exact hfirst
      · exact hmod _
      · exact hmod _
      · exact hmod _
      · exact ih h
  | case2 a b n =>
      have hfirst : isTextual (digit (n / 4096)) = true :=
        isTextual_digit _ (by have := bigEndian_pair_lt a b; omega)
      simp only [List.mem_cons, List.not_mem_nil, or_false] at h
      rcases h with rfl | rfl | rfl | rfl
      · exact hfirst
      · exact hmod _
      · exact hmod _
      · exact hpad
  | case3 a n =>
      have hfirst : isTextual (digit (n / 64)) = true :=
        isTextual_digit _ (by have := a.toNat_lt; omega)
      simp only [List.mem_cons, List.not_mem_nil, or_false] at h
      rcases h with rfl | rfl | rfl | rfl
      · exact hfirst
      · exact hmod _
      · exact hpad
      · exact hpad
  | case4 => cases h

end SecureBoot.Base64
