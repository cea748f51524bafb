import Mathlib.Data.Nat.ModEq
import SecureBoot.Proofs.Euclid

/-!
# Registers — the extended algorithm of Euclid on machine words

A machine keeps the numbers of the algorithm in four `Registers`, signed words of 128 bits.  It
knows nothing of them beforehand.  `Euclid.runInWords?` checks numbers whose remainders are
natural by their type, and ends because these decrease; here a remainder may be negative, and
there is no result if a number does not fit into a word or if the divisions go on for ever.

* `Registers.Holds`: the registers hold the numbers of a state.  A division keeps this as long as
  what it computes fits (`Registers.Holds.exists_step?`), and so does a whole run
  (`Registers.Holds.exists_run?`).
* `registers_compute_inverse`: on inputs of 64 bits the machine always stops, with the inverse
  exactly if there is one.
-/

namespace SecureBoot

/-! ## Words -/

/-- The word with this value, if the value fits into one. -/
def word? (x : Int) : Option (BitVec 128) :=
  if FitsWord x then some (BitVec.ofInt 128 x) else none

theorem fitsWord_toInt (word : BitVec 128) : FitsWord word.toInt :=
  ⟨word.le_toInt, word.toInt_lt⟩

theorem toInt_ofInt_of_fitsWord {x : Int} (h : FitsWord x) : (BitVec.ofInt 128 x).toInt = x :=
  BitVec.toInt_ofInt_eq_self (by decide) h.1 h.2

theorem word?_eq_some_iff {x : Int} {word : BitVec 128} : word? x = some word ↔ word.toInt = x := by
  rw [word?]
  constructor
  · intro h
    split at h
    · next hfits =>
      cases h
      exact toInt_ofInt_of_fitsWord hfits
    · cases h
  · rintro rfl
    rw [if_pos (fitsWord_toInt word), BitVec.ofInt_toInt]

theorem exists_word? {x : Int} (h : FitsWord x) : ∃ word, word? x = some word ∧ word.toInt = x := by
  have hvalue := toInt_ofInt_of_fitsWord h
  exact ⟨BitVec.ofInt 128 x, word?_eq_some_iff.2 hvalue, hvalue⟩

/-! ### Numbers of 64 bits -/

theorem fitsWord_natCast {x : Nat} (h : x < 2 ^ 64) : FitsWord x :=
  fitsWord_of_natAbs_le (Int.natAbs_natCast x).le h

theorem toNat_ofInt_natCast {x : Nat} (h : x < 2 ^ 64) : (UInt64.ofInt x).toNat = x := by
  have hmod : (x : Int) % 2 ^ 64 = x := Int.emod_eq_of_lt (Int.natCast_nonneg x) (by omega)
  rw [UInt64.ofInt, hmod, Int.toNat_natCast, UInt64.toNat_ofNat_of_lt' h]

/-! ## Registers -/

/-- Two consecutive remainders and their cofactors, each in a word. -/
structure Registers where
  oldRemainder : BitVec 128
  remainder : BitVec 128
  oldCofactor : BitVec 128
  cofactor : BitVec 128

namespace Registers

/-- One division.  Each number that it computes is put into a word, and the quotient is rounded
toward zero. -/
def step? (r : Registers) : Option Registers := do
  let quotient ← word? (r.oldRemainder.toInt.tdiv r.remainder.toInt)
  let product ← word? (quotient.toInt * r.remainder.toInt)
  let remainder ← word? (r.oldRemainder.toInt - product.toInt)
  let cofactorProduct ← word? (quotient.toInt * r.cofactor.toInt)
  let cofactor ← word? (r.oldCofactor.toInt - cofactorProduct.toInt)
  return ⟨r.remainder, remainder, r.cofactor, cofactor⟩

/-- Divisions until the remainder is zero.  There is no result if they go on for ever. -/
def run? (r : Registers) : Option Registers :=
  if r.remainder.toInt = 0 then some r
  else do
    let next ← r.step?
    next |>.run?
partial_fixpoint

/-- The registers hold the numbers of a state. -/
structure Holds (r : Registers) (s : Euclid) : Prop where
  oldRemainder_eq : r.oldRemainder.toInt = s.oldRemainder
  remainder_eq : r.remainder.toInt = s.remainder
  oldCofactor_eq : r.oldCofactor.toInt = s.oldCofactor
  cofactor_eq : r.cofactor.toInt = s.cofactor

variable {r : Registers} {s last : Euclid}

theorem Holds.exists_step? (h : r.Holds s) (hfits : ∀ x ∈ s.computed, FitsWord x) :
    ∃ next, r.step? = some next ∧ next.Holds s.step := by
  simp only [Euclid.computed, List.forall_mem_cons] at hfits
  rcases hfits with ⟨hquotient, hproduct, hremainder, hcofactorProduct, hcofactor, -⟩
  rcases exists_word? hquotient with ⟨quotient, hquotient, hquotientInt⟩
  rcases exists_word? hproduct with ⟨product, hproduct, hproductInt⟩
  rcases exists_word? hremainder with ⟨remainder, hremainder, hremainderInt⟩
  rcases exists_word? hcofactorProduct with ⟨cofactorProduct, hcofactorProduct, hcofactorProductInt⟩
  rcases exists_word? hcofactor with ⟨cofactor, hcofactor, hcofactorInt⟩
  -- The remainders are not negative, so rounding toward zero rounds down.
  have hdiv : (s.oldRemainder : Int).tdiv s.remainder = s.quotient :=
    (Int.ofNat_tdiv _ _).symm
  refine ⟨⟨r.remainder, remainder, r.cofactor, cofactor⟩, ?_, h.remainder_eq, ?_, h.cofactor_eq,
    hcofactorInt⟩
  · simp only [step?, hdiv, hquotient, hquotientInt, h.oldRemainder_eq, h.remainder_eq,
      h.oldCofactor_eq, h.cofactor_eq, hproduct, hproductInt, hremainder, hcofactorProduct,
      hcofactorProductInt, hcofactor, Option.bind_eq_bind, Option.bind_some, Option.pure_def]
  · rw [hremainderInt, Euclid.natCast_remainder_step]

theorem Holds.exists_run? (h : r.Holds s) (hrun : s.runInWords? = some last) :
    ∃ final, r.run? = some final ∧ final.Holds last := by
  -- Induction along the divisions of the state, of which there are finitely many.
  fun_induction Euclid.runInWords? s generalizing r with
  | case1 s hzero =>
      cases hrun
      have hstop : r.remainder.toInt = 0 := by rw [h.remainder_eq, hzero, Nat.cast_zero]
      exact ⟨r, by rw [run?, if_pos hstop], h⟩
  | case2 s hne hfits ih =>
      rcases h.exists_step? hfits with ⟨next, hstep, hnext⟩
      rcases ih hnext hrun with ⟨final, hfinal, hlast⟩
      have hgo : ¬r.remainder.toInt = 0 := by
        rw [h.remainder_eq]
        exact_mod_cast hne
      refine ⟨final, ?_, hlast⟩
      rw [run?, if_neg hgo, hstep]
      exact hfinal
  | case3 => cases hrun

end Registers

/-! ## Inverses -/

namespace Registers

/-- The inverse that the last registers give, as a word of 64 bits, if there is one: the old
cofactor modulo the second input. -/
def inverse? (last : Registers) (modulus : BitVec 128) : Option (Option UInt64) :=
  if last.oldRemainder.toInt = 1 then do
    let inverse ← word? (last.oldCofactor.toInt % modulus.toInt)
    return some (UInt64.ofInt inverse.toInt)
  else return none

end Registers

/-- The inverse of `a` modulo `n`, if there is one, computed in registers.  There is no result if a
number does not fit into its word, if the divisions do not end, or for zero as the modulus. -/
def modInverse64? (a n : UInt64) : Option (Option UInt64) :=
  if n = 0 then none
  else do
    let modulus ← word? n.toNat
    let first ← word? ((a.toNat : Int).tmod modulus.toInt)
    let last ← Registers.run? ⟨first, modulus, 1, 0⟩
    last.inverse? modulus

namespace Registers

variable {n : UInt64}

theorem exists_holds_start (hn : 0 < n.toNat) (a : UInt64) :
    ∃ modulus first, word? n.toNat = some modulus ∧ modulus.toInt = n.toNat ∧
      word? ((a.toNat : Int).tmod modulus.toInt) = some first ∧
      Holds ⟨first, modulus, 1, 0⟩ ⟨a.toNat % n.toNat, n.toNat, 1, 0⟩ := by
  rcases exists_word? (fitsWord_natCast n.toNat_lt) with ⟨modulus, hmodulus, hmodulusInt⟩
  have hmod : (a.toNat : Int).tmod modulus.toInt = (a.toNat % n.toNat : Nat) := by
    rw [hmodulusInt, ← Int.ofNat_tmod]
  have hlt : a.toNat % n.toNat < 2 ^ 64 := (Nat.mod_lt _ hn).trans n.toNat_lt
  rcases exists_word? (fitsWord_natCast hlt) with ⟨first, hfirst, hfirstInt⟩
  exact ⟨modulus, first, hmodulus, hmodulusInt, hmod ▸ hfirst, hfirstInt, hmodulusInt, rfl, rfl⟩

theorem Holds.exists_inverse? {r : Registers} {last : Euclid} {modulus : BitVec 128}
    (h : r.Holds last) (hn : 0 < n.toNat) (hmodulus : modulus.toInt = n.toNat) :
    ∃ result, r.inverse? modulus = some result ∧ result.map UInt64.toNat =
      if last.oldRemainder = 1 then some (last.oldCofactor % (n.toNat : Int)).toNat else none := by
  have hposInt : (0 : Int) < n.toNat := Int.natCast_pos.2 hn
  -- A remainder of a division by the modulus is a number of 64 bits.
  rcases Int.eq_ofNat_of_zero_le (Int.emod_nonneg last.oldCofactor hposInt.ne') with ⟨x, hx⟩
  have hlt : x < 2 ^ 64 := by
    have hmodlt := Int.emod_lt_of_pos last.oldCofactor hposInt
    have hn64 := n.toNat_lt
    omega
  rcases exists_word? (fitsWord_natCast hlt) with ⟨inverse, hinverse, hinverseInt⟩
  rw [inverse?, h.oldRemainder_eq, h.oldCofactor_eq, hmodulus, hx, hinverse]
  by_cases hone : last.oldRemainder = 1
  · refine ⟨some (UInt64.ofInt x), ?_, ?_⟩
    · rw [hone, if_pos Nat.cast_one, Option.bind_eq_bind, Option.bind_some, hinverseInt]
      rfl
    · rw [if_pos hone, Option.map_some, toNat_ofInt_natCast hlt, Int.toNat_natCast]
  · exact ⟨none, if_neg (by exact_mod_cast hone), (if_neg hone).symm⟩

end Registers

/-- The machine computes what the algorithm does on numbers of any size. -/
theorem exists_modInverse64? {n : UInt64} (hn : 0 < n) (a : UInt64) :
    ∃ result, modInverse64? a n = some result ∧
      result.map UInt64.toNat = modInverse? a.toNat n.toNat := by
  have hpos : 0 < n.toNat := UInt64.lt_iff_toNat_lt.1 hn
  have hne : n ≠ 0 := by
    rintro rfl
    exact Nat.lt_irrefl 0 hpos
  rcases Registers.exists_holds_start hpos a with
    ⟨modulus, first, hmodulus, hmodulusInt, hfirst, hstart⟩
  rcases hstart.exists_run? ((Euclid.balanced_start a.toNat hpos).runInWords?_eq n.toNat_lt) with
    ⟨last, hlast, hholds⟩
  rcases hholds.exists_inverse? hpos hmodulusInt with ⟨result, hresult, hvalue⟩
  refine ⟨result, ?_, hvalue⟩
  simp only [modInverse64?, if_neg hne, hmodulus, hfirst, hlast, hresult, Option.bind_eq_bind,
    Option.bind_some]

/-- For inputs of 64 bits the divisions in registers end, and no number outgrows its word.  The
result is that of the algorithm on numbers of any size: an inverse exactly if the inputs are
coprime, and it is the only number below the modulus whose product with the first input leaves
one. -/
theorem registers_compute_inverse {n : UInt64} (hn : 0 < n) (a : UInt64) :
    ∃ result, modInverse64? a n = some result ∧
      result.map UInt64.toNat = modInverse? a.toNat n.toNat ∧
      (result.isSome ↔ Nat.gcd a.toNat n.toNat = 1) ∧
      ∀ x, result = some x ↔ x < n ∧ a.toNat * x.toNat ≡ 1 [MOD n.toNat] := by
  have hpos : 0 < n.toNat := UInt64.lt_iff_toNat_lt.1 hn
  rcases exists_modInverse64? hn a with ⟨result, hresult, hvalue⟩
  refine ⟨result, hresult, hvalue, ?_, fun x => ?_⟩
  · rw [← isSome_modInverse?_iff hpos, ← hvalue, Option.isSome_map]
  · calc
      result = some x
          ↔ modInverse? a.toNat n.toNat = some x.toNat := by
            rw [← hvalue]
            cases result with
            | none => simp
            | some y => simp [UInt64.toNat_inj]
      _ ↔ x.toNat < n.toNat ∧ a.toNat * x.toNat ≡ 1 [MOD n.toNat] :=
            modInverse?_eq_some_iff hpos
      _ ↔ x < n ∧ a.toNat * x.toNat ≡ 1 [MOD n.toNat] := by
            rw [UInt64.lt_iff_toNat_lt]

/-- An inverse, inputs with a common divisor, the largest inputs, and the modulus one. -/
theorem registers_compute_inverse_samples :
    modInverse64? 3 7 = some (some 5) ∧ modInverse64? 4 8 = some none ∧
    modInverse64? 0xFFFFFFFFFFFFFFFE 0xFFFFFFFFFFFFFFFF = some (some 0xFFFFFFFFFFFFFFFE) ∧
    modInverse64? 0 1 = some (some 0) := by
  rcases registers_compute_inverse (show (0 : UInt64) < 7 by decide) 3 with
    ⟨_, hseven, -, -, hinverseSeven⟩
  rcases registers_compute_inverse (show (0 : UInt64) < 8 by decide) 4 with
    ⟨_, height, -, hsomeEight, -⟩
  rcases registers_compute_inverse (show (0 : UInt64) < 0xFFFFFFFFFFFFFFFF by decide)
    0xFFFFFFFFFFFFFFFE with ⟨_, hlargest, -, -, hinverseLargest⟩
  rcases registers_compute_inverse (show (0 : UInt64) < 1 by decide) 0 with
    ⟨_, hone, -, -, hinverseOne⟩
  rw [hseven, height, hlargest, hone]
  refine ⟨?_, ?_, ?_, ?_⟩
  · rw [(hinverseSeven 5).2 ⟨by decide, by decide⟩]
  · rw [Option.not_isSome_iff_eq_none.1 (mt hsomeEight.1 (by decide))]
  · rw [(hinverseLargest 0xFFFFFFFFFFFFFFFE).2 ⟨by decide, by decide⟩]
  · rw [(hinverseOne 0).2 ⟨by decide, by decide⟩]

end SecureBoot
