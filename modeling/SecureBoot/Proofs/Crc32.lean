import Mathlib.Data.Nat.Bitwise
import Mathlib.Logic.Function.Iterate
import SecureBoot.Hash.Crc32
import SecureBoot.Proofs.ByteOrder

/-!
# Crc32 — the checksum register as a linear map

A shift of the register is linear in exclusive or and only moves a number with a zero in the last
place.  So nothing distinguishes the register from the bits that still wait to enter it:
`Crc32.step` is the shift on numbers of any size, and feeding a string is stepping once for each of
its bits from the register combined with the whole string (`toNat_feedAll`).

* `feedAll_checksum`: a string followed by its checksum leaves one and the same register.
* `feedAll_ne_of_burst`: strings that differ within 32 consecutive bits only leave different
  registers.  The difference moves to the front unchanged, fits into the register, and no step
  makes a register zero that was not zero before.
-/

namespace SecureBoot.Crc32

/-! ## One step -/

/-- `shift`, on a number of any size. -/
def step (x : Nat) : Nat :=
  if x % 2 = 1 then x / 2 ^^^ generator.toNat else x / 2

theorem toNat_shift (register : UInt32) : (shift register).toNat = step register.toNat := by
  have hbit : register &&& 1 = 1 ↔ register.toNat % 2 = 1 := by
    rw [← UInt32.toNat_inj, UInt32.toNat_and]
    exact iff_of_eq (congrArg (· = 1) (Nat.and_one_is_mod register.toNat))
  have hhalf : (register >>> 1).toNat = register.toNat / 2 := by
    rw [UInt32.toNat_shiftRight]
    exact Nat.shiftRight_eq_div_pow register.toNat 1
  by_cases h : register.toNat % 2 = 1
  · rw [shift, if_pos (hbit.2 h), step, if_pos h, UInt32.toNat_xor, hhalf]
  · rw [shift, if_neg (fun hb => h (hbit.1 hb)), step, if_neg h, hhalf]

theorem step_xor (x y : Nat) : step (x ^^^ y) = step x ^^^ step y := by
  have hparity : (x ^^^ y) % 2 = (x % 2 + y % 2) % 2 := by
    rw [Nat.xor_mod_two_eq, Nat.add_mod]
  rcases Nat.mod_two_eq_zero_or_one x with hx | hx <;>
    rcases Nat.mod_two_eq_zero_or_one y with hy | hy
  · simp [step, Nat.xor_div_two, hparity, hx, hy]
  · simp [step, Nat.xor_div_two, hparity, hx, hy, Nat.xor_assoc]
  · simp [step, Nat.xor_div_two, hparity, hx, hy, Nat.xor_right_comm]
  · -- The generator occurs twice on the right and cancels.
    simp [step, Nat.xor_div_two, hparity, hx, hy, Nat.xor_left_comm, Nat.xor_comm]

@[simp] theorem step_two_mul (x : Nat) : step (2 * x) = x := by
  simp [step]

theorem step_lt {x : Nat} (h : x < 2 ^ 32) : step x < 2 ^ 32 := by
  have hhalf : x / 2 < 2 ^ 32 := lt_of_le_of_lt (Nat.div_le_self x 2) h
  rw [step]
  split
  · exact Nat.xor_lt_two_pow hhalf generator.toNat_lt
  · exact hhalf

/-- A register is zero after a step only if it was zero before: the generator has its first bit set,
which half a register does not have. -/
theorem step_ne_zero {x : Nat} (h : x < 2 ^ 32) (hx : x ≠ 0) : step x ≠ 0 := by
  intro hzero
  rw [step] at hzero
  split at hzero
  · have hhalf : x / 2 = generator.toNat := Nat.xor_eq_zero_iff.1 hzero
    have hgen : generator.toNat = 0xedb88320 := rfl
    omega
  · omega

/-! ## Many steps -/

theorem iterate_step_xor (n x y : Nat) : step^[n] (x ^^^ y) = step^[n] x ^^^ step^[n] y := by
  induction n generalizing x y with
  | zero => rfl
  | succ n ih => rw [Function.iterate_succ_apply, step_xor, ih, ← Function.iterate_succ_apply,
      ← Function.iterate_succ_apply]

theorem iterate_step_two_pow_mul (n x : Nat) : step^[n] (2 ^ n * x) = x := by
  induction n with
  | zero => simp
  | succ n ih =>
      have hpow : 2 ^ (n + 1) * x = 2 * (2 ^ n * x) := by
        rw [Nat.pow_succ, Nat.mul_comm (2 ^ n) 2, Nat.mul_assoc]
      rw [hpow, Function.iterate_succ_apply, step_two_mul, ih]

theorem iterate_step_ne_zero {x : Nat} (n : Nat) (h : x < 2 ^ 32) (hx : x ≠ 0) :
    step^[n] x ≠ 0 := by
  induction n generalizing x with
  | zero => exact hx
  | succ n ih =>
      -- What a step leaves is a register again.
      rw [Function.iterate_succ_apply]
      exact ih (step_lt h) (step_ne_zero h hx)

theorem toNat_repeat_shift (n : Nat) (register : UInt32) :
    (Nat.repeat shift n register).toNat = step^[n] register.toNat := by
  induction n with
  | zero => rfl
  | succ n ih => rw [Nat.repeat, toNat_shift, ih, Function.iterate_succ_apply']

/-! ## Feeding strings -/

theorem toNat_feed (register : UInt32) (b : UInt8) :
    (feed register b).toNat = step^[8] (register.toNat ^^^ b.toNat) := by
  rw [feed, toNat_repeat_shift, UInt32.toNat_xor, UInt8.toNat_toUInt32]

/-- An octet in front of a number takes the last eight places. -/
theorem octet_add_eq_xor (b : UInt8) (n : Nat) : b.toNat + 256 * n = b.toNat ^^^ 2 ^ 8 * n := by
  have hb : b.toNat < 2 ^ 8 := b.toNat_lt
  apply Nat.eq_of_testBit_eq
  intro i
  have hsum : b.toNat + 256 * n = 2 ^ 8 * n + b.toNat := Nat.add_comm _ _
  rw [hsum, Nat.testBit_two_pow_mul_add _ hb, Nat.testBit_xor, Nat.testBit_two_pow_mul]
  by_cases hi : i < 8
  · simp [hi, Nat.not_le.2 hi]
  · have hle : 8 ≤ i := not_lt.1 hi
    have hzero : b.toNat.testBit i = false :=
      Nat.testBit_lt_two_pow (lt_of_lt_of_le hb (Nat.pow_le_pow_right (by decide) hle))
    simp [hi, hle, hzero]

/-- The register after a string: one step for each bit, from the register combined with the
string. -/
theorem toNat_feedAll (register : UInt32) (bs : Bytes) :
    (feedAll register bs).toNat = step^[8 * bs.length] (register.toNat ^^^ littleEndian bs) := by
  induction bs generalizing register with
  | nil => simp [feedAll, littleEndian]
  | cons b bs ih =>
      have hlen : 8 * (b :: bs).length = 8 * bs.length + 8 := by
        rw [List.length_cons, Nat.mul_add]
      -- The rest of the string waits above the first octet, and eight steps bring it down.
      calc
        (feedAll register (b :: bs)).toNat
            = step^[8 * bs.length] ((feed register b).toNat ^^^ littleEndian bs) :=
              ih (feed register b)
        _ = step^[8 * bs.length] (step^[8] (register.toNat ^^^ b.toNat ^^^
              2 ^ 8 * littleEndian bs)) := by
              rw [toNat_feed, iterate_step_xor 8 (register.toNat ^^^ b.toNat),
                iterate_step_two_pow_mul]
        _ = step^[8 * (b :: bs).length] (register.toNat ^^^ littleEndian (b :: bs)) := by
              rw [← Function.iterate_add_apply, ← hlen, littleEndian, octet_add_eq_xor,
                Nat.xor_assoc]

/-- What the register holds after a string and its checksum. -/
def residue : UInt32 := 0xdebb20e3

theorem feedAll_checksum {bs stored : Bytes} (hlen : stored.length = 4)
    (h : littleEndian stored = (checksum bs).toNat) :
    feedAll 0xffffffff (bs ++ stored) = residue := by
  have hcancel : (feedAll 0xffffffff bs).toNat ^^^ littleEndian stored = 0xffffffff := by
    rw [h, checksum, UInt32.toNat_xor, ← Nat.xor_assoc, Nat.xor_self, Nat.zero_xor]
    rfl
  apply UInt32.toNat_inj.1
  rw [feedAll_append, toNat_feedAll, hcancel, hlen]
  decide +kernel

-- The digits from one to nine give the check value of this code.
example : checksum [0x31, 0x32, 0x33, 0x34, 0x35, 0x36, 0x37, 0x38, 0x39] = 0xcbf43926 := by
  decide +kernel

/-! ## Bursts -/

/-- The strings have one length and differ, but nowhere outside 32 consecutive bits. -/
structure Burst (xs ys : Bytes) : Prop where
  length_eq : xs.length = ys.length
  ne : xs ≠ ys
  window : ∃ start, ∀ i, bitAt xs i ≠ bitAt ys i → start ≤ i ∧ i < start + 32

/-- A change of one octet is a burst. -/
theorem burst_set {xs : Bytes} {i : Nat} {b : UInt8} (hi : i < xs.length) (hb : xs.getD i 0 ≠ b) :
    Burst xs (xs.set i b) where
  length_eq := List.length_set.symm
  ne := by
    intro heq
    have hget := congrArg (fun bs => bs.getD i 0) heq
    simp only [List.getD_eq_getElem?_getD, List.getElem?_set_self hi, Option.getD_some] at hget
    rw [← List.getD_eq_getElem?_getD] at hget
    exact hb hget
  window := by
    refine ⟨8 * i, fun j hj => ?_⟩
    -- A bit of any other octet is the same in both strings.
    have hoctet : i = j / 8 := by
      by_contra hne
      apply hj
      rw [bitAt, bitAt, List.getD_eq_getElem?_getD, List.getD_eq_getElem?_getD,
        List.getElem?_set_ne hne]
    omega

/-- A number all of whose bits are among 32 consecutive ones survives any number of steps. -/
theorem iterate_step_ne_zero_of_window {x n : Nat} (start : Nat) (hx : x ≠ 0) (hlt : x < 2 ^ n)
    (hwindow : ∀ i, x.testBit i = true → start ≤ i ∧ i < start + 32) :
    step^[n] x ≠ 0 := by
  have hstart : start ≤ n := by
    rcases Nat.exists_testBit_of_ne_zero hx with ⟨i, hi⟩
    have hin : i < n := Nat.lt_of_not_le fun hni => by
      have hle : 2 ^ n ≤ 2 ^ i := Nat.pow_le_pow_right (by decide) hni
      have hzero := Nat.testBit_lt_two_pow (lt_of_lt_of_le hlt hle)
      rw [hzero] at hi
      exact Bool.false_ne_true hi
    exact le_trans (hwindow i hi).1 hin.le
  -- The bits in the window, moved down to the last places, make a register.
  have hsplit : x = 2 ^ start * (x / 2 ^ start) := by
    apply Nat.eq_of_testBit_eq
    intro i
    rw [Nat.testBit_two_pow_mul, Nat.testBit_div_two_pow]
    by_cases hi : start ≤ i
    · simp [hi]
    · have hzero : x.testBit i = false := by
        rw [← Bool.not_eq_true]
        exact fun htrue => hi (hwindow i htrue).1
      simp [hi, hzero]
  have hregister : x / 2 ^ start < 2 ^ 32 := by
    apply Nat.lt_pow_two_of_testBit
    intro i hi
    rw [Nat.testBit_div_two_pow, ← Bool.not_eq_true]
    intro htrue
    have := (hwindow (i + start) htrue).2
    omega
  have hne : x / 2 ^ start ≠ 0 := by
    intro hzero
    rw [hzero, Nat.mul_zero] at hsplit
    exact hx hsplit
  rw [← Nat.sub_add_cancel hstart, Function.iterate_add_apply, hsplit, iterate_step_two_pow_mul]
  exact iterate_step_ne_zero (n - start) hregister hne

theorem feedAll_ne_of_burst (register : UInt32) {xs ys : Bytes} (h : Burst xs ys) :
    feedAll register xs ≠ feedAll register ys := by
  rcases h with ⟨hlen, hne, start, hwindow⟩
  intro heq
  have hdiff : littleEndian xs ^^^ littleEndian ys ≠ 0 := by
    intro hzero
    exact hne (eq_of_littleEndian_eq hlen (Nat.xor_eq_zero_iff.1 hzero))
  have hlt : littleEndian xs ^^^ littleEndian ys < 2 ^ (8 * xs.length) := by
    refine Nat.xor_lt_two_pow (littleEndian_lt_two_pow xs) ?_
    rw [hlen]
    exact littleEndian_lt_two_pow ys
  -- Equal registers would be a difference that the steps have brought to zero.
  refine iterate_step_ne_zero_of_window start hdiff hlt ?_ ?_
  · intro i hi
    apply hwindow i
    rw [Nat.testBit_xor, testBit_littleEndian, testBit_littleEndian] at hi
    simpa using hi
  · have hnum := congrArg UInt32.toNat heq
    rw [toNat_feedAll, toNat_feedAll, ← hlen, iterate_step_xor, iterate_step_xor] at hnum
    rw [iterate_step_xor]
    exact Nat.xor_eq_zero_iff.2 (Nat.xor_right_injective hnum)

end SecureBoot.Crc32
