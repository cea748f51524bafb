import SecureBoot.Cipher.Aes

/-!
# Aes — decryption undoes encryption

The S-boxes are inverse to each other, since inversion in the field and the affine map are undone
(`unsubstitute_substitute`), and so are the two products with columns, since a product in the field
is linear (`dot_dot`).  So each round is undone, and with it the block cipher
(`decryptBlock_encryptBlock`).  The round keys of a key of any size are whole blocks
(`length_of_mem_roundKeys`).
-/

namespace SecureBoot.Aes

/-! ## S-boxes -/

theorem inverse_inverse (b : UInt8) : inverse (inverse b) = b := by
  have hall : ∀ n < 256, inverse (inverse (UInt8.ofNat n)) = UInt8.ofNat n := by
    decide +kernel
  simpa using hall b.toNat b.toNat_lt

theorem unaffine_affine (b : UInt8) : unaffine (affine b) = b := by
  have hall : ∀ n < 256, unaffine (affine (UInt8.ofNat n)) = UInt8.ofNat n := by
    decide +kernel
  simpa using hall b.toNat b.toNat_lt

theorem unsubstitute_substitute (b : UInt8) : unsubstitute (substitute b) = b := by
  rw [unsubstitute, substitute, unaffine_affine, inverse_inverse]

@[simp] theorem look_tabulate (f : UInt8 → UInt8) (b : UInt8) : look (tabulate f) b = f b := by
  have hget := Vector.getElem_ofFn (f := fun i : Fin 256 => f (UInt8.ofNat i.val)) b.toNat_lt
  simp only [UInt8.ofNat_toNat] at hget
  exact hget

/-! ## Rows -/

theorem unshiftRows_shiftRows (state : Bytes) : unshiftRows (shiftRows state) = state := by
  fun_cases shiftRows state with
  | case1 => rfl
  | case2 => simp_all [unshiftRows]

@[simp] theorem length_shiftRows (state : Bytes) : (shiftRows state).length = state.length := by
  fun_cases shiftRows state <;> rfl

theorem unscramble_scramble (state : Bytes) : unscramble (scramble state) = state := by
  have hsubstitutes : look unsubstitutes ∘ look substitutes = id := by
    funext b
    simp [substitutes, unsubstitutes, unsubstitute_substitute]
  rw [unscramble, scramble, unshiftRows_shiftRows, List.map_map, hsubstitutes, List.map_id]

@[simp] theorem length_scramble (state : Bytes) : (scramble state).length = state.length := by
  simp [scramble]

/-! ## Columns -/

theorem mulBits_xor (n : Nat) (a b c : UInt8) :
    mulBits n a (b ^^^ c) = mulBits n a b ^^^ mulBits n a c := by
  induction n generalizing a b c with
  | zero => exact UInt8.xor_self.symm
  | succ n ih =>
      simp only [mulBits, UInt8.shiftRight_xor, ih, UInt8.toNat_xor, Nat.xor_mod_two_eq_one]
      generalize mulBits n (double a) (b >>> 1) = x
      generalize mulBits n (double a) (c >>> 1) = y
      by_cases hb : b.toNat % 2 = 1 <;> by_cases hc : c.toNat % 2 = 1 <;> simp [hb, hc]
      -- Two odd numbers add `a` twice, which is nothing.
      · calc
          x ^^^ y = (a ^^^ a) ^^^ (x ^^^ y) := by rw [UInt8.xor_self, UInt8.zero_xor]
          _ = a ^^^ x ^^^ (a ^^^ y) := by ac_rfl
      · ac_rfl
      · ac_rfl

theorem mul_xor (a b c : UInt8) : mul a (b ^^^ c) = mul a b ^^^ mul a c :=
  mulBits_xor 8 a b c

/-- The products of the coefficients of the two polynomials, as far as they meet in one octet. -/
theorem mul_mul (b : UInt8) :
    mul 14 (mul 2 b) ^^^ mul 11 (mul 1 b) ^^^ mul 13 (mul 1 b) ^^^ mul 9 (mul 3 b) = b ∧
      mul 14 (mul 3 b) ^^^ mul 11 (mul 2 b) ^^^ mul 13 (mul 1 b) ^^^ mul 9 (mul 1 b) = 0 ∧
      mul 14 (mul 1 b) ^^^ mul 11 (mul 3 b) ^^^ mul 13 (mul 2 b) ^^^ mul 9 (mul 1 b) = 0 ∧
      mul 14 (mul 1 b) ^^^ mul 11 (mul 1 b) ^^^ mul 13 (mul 3 b) ^^^ mul 9 (mul 2 b) = 0 := by
  have hall : ∀ n < 256,
      let b := UInt8.ofNat n
      mul 14 (mul 2 b) ^^^ mul 11 (mul 1 b) ^^^ mul 13 (mul 1 b) ^^^ mul 9 (mul 3 b) = b ∧
        mul 14 (mul 3 b) ^^^ mul 11 (mul 2 b) ^^^ mul 13 (mul 1 b) ^^^ mul 9 (mul 1 b) = 0 ∧
        mul 14 (mul 1 b) ^^^ mul 11 (mul 3 b) ^^^ mul 13 (mul 2 b) ^^^ mul 9 (mul 1 b) = 0 ∧
        mul 14 (mul 1 b) ^^^ mul 11 (mul 1 b) ^^^ mul 13 (mul 3 b) ^^^ mul 9 (mul 2 b) = 0 := by
    decide +kernel
  simpa using hall b.toNat b.toNat_lt

/-- The product of a column with both polynomials is the column. -/
theorem dot_dot (a b c d : UInt8) :
    dot 14 11 13 9 (dot 2 3 1 1 a b c d) (dot 2 3 1 1 b c d a) (dot 2 3 1 1 c d a b)
      (dot 2 3 1 1 d a b c) = a := by
  calc
    _ = (mul 14 (mul 2 a) ^^^ mul 11 (mul 1 a) ^^^ mul 13 (mul 1 a) ^^^ mul 9 (mul 3 a)) ^^^
          (mul 14 (mul 3 b) ^^^ mul 11 (mul 2 b) ^^^ mul 13 (mul 1 b) ^^^ mul 9 (mul 1 b)) ^^^
          (mul 14 (mul 1 c) ^^^ mul 11 (mul 3 c) ^^^ mul 13 (mul 2 c) ^^^ mul 9 (mul 1 c)) ^^^
          (mul 14 (mul 1 d) ^^^ mul 11 (mul 1 d) ^^^ mul 13 (mul 3 d) ^^^ mul 9 (mul 2 d)) := by
        simp only [dot, mul_xor]
        ac_rfl
    _ = a := by
        rw [(mul_mul a).1, (mul_mul b).2.1, (mul_mul c).2.2.1, (mul_mul d).2.2.2]
        simp

theorem unmixColumns_mixColumns : ∀ {state : Bytes}, state.length % 4 = 0 →
    unmixColumns (mixColumns state) = state
  | [], _ => rfl
  | a :: b :: c :: d :: rest, h => by
      have hrest : rest.length % 4 = 0 := by
        simpa [Nat.add_assoc] using h
      have htail := unmixColumns_mixColumns hrest
      simp only [mixColumns, unmixColumns, multiplyColumns] at htail ⊢
      rw [dot_dot a b c d, dot_dot b c d a, dot_dot c d a b, dot_dot d a b c, htail]

theorem length_mixColumns : ∀ {state : Bytes}, state.length % 4 = 0 →
    (mixColumns state).length = state.length
  | [], _ => rfl
  | a :: b :: c :: d :: rest, h => by
      have hrest : rest.length % 4 = 0 := by
        simpa [Nat.add_assoc] using h
      have htail := length_mixColumns hrest
      simp only [mixColumns, multiplyColumns, List.length_cons] at htail ⊢
      rw [htail]

/-! ## Rounds -/

section Rounds

variable {keys : List Bytes} {state : Bytes}

@[simp] theorem length_doRounds (hkeys : ∀ key ∈ keys, key.length = 16)
    (hstate : state.length = 16) : (doRounds state keys).length = 16 := by
  fun_induction doRounds state keys with
  | case1 => exact hstate
  | case2 state key =>
      simp [hstate, List.forall_mem_singleton.1 hkeys]
  | case3 state key more _ ih =>
      rcases List.forall_mem_cons.1 hkeys with ⟨hkey, hmore⟩
      refine ih hmore ?_
      rw [length_xorBytes, length_mixColumns] <;> simp [hstate, hkey]

/-- The rounds are undone, the last one first. -/
theorem undoRounds_doRounds (hkeys : ∀ key ∈ keys, key.length = 16)
    (hstate : state.length = 16) : undoRounds (doRounds state keys) keys = state := by
  fun_induction doRounds state keys with
  | case1 => rfl
  | case2 state key =>
      have hkey := List.forall_mem_singleton.1 hkeys
      have hlength : (scramble state).length ≤ key.length := by
        simp [hstate, hkey]
      rw [undoRounds, xorBytes_cancel hlength, unscramble_scramble]
  | case3 state key more hmore ih =>
      rcases List.forall_mem_cons.1 hkeys with ⟨hkey, hrest⟩
      have hcolumns : (scramble state).length % 4 = 0 := by
        simp [hstate]
      have hlength : (mixColumns (scramble state)).length ≤ key.length := by
        simp [length_mixColumns hcolumns, hstate, hkey]
      have hundone := ih hrest (by simp [length_mixColumns hcolumns, hstate, hkey])
      rw [undoRounds, hundone, xorBytes_cancel hlength, unmixColumns_mixColumns hcolumns,
        unscramble_scramble]
      exact hmore

theorem length_encryptBlock (hkeys : ∀ key ∈ keys, key.length = 16)
    (hstate : state.length = 16) : (encryptBlock keys state).length = 16 := by
  cases keys with
  | nil => exact hstate
  | cons key more =>
      rcases List.forall_mem_cons.1 hkeys with ⟨hkey, hmore⟩
      exact length_doRounds hmore (by simp [hstate, hkey])

theorem decryptBlock_encryptBlock (hkeys : ∀ key ∈ keys, key.length = 16)
    (hstate : state.length = 16) : decryptBlock keys (encryptBlock keys state) = state := by
  cases keys with
  | nil => rfl
  | cons key more =>
      rcases List.forall_mem_cons.1 hkeys with ⟨hkey, hmore⟩
      have hlength : (xorBytes state key).length = 16 := by
        simp [hstate, hkey]
      rw [encryptBlock, decryptBlock, undoRounds_doRounds hmore hlength]
      exact xorBytes_cancel (Nat.le_of_eq (hstate.trans hkey.symm))

end Rounds

/-! ## Round keys -/

theorem length_of_mem_words {bs : Bytes} : ∀ w ∈ words bs, w.length = 4 := by
  fun_induction words bs with
  | case1 a b c d rest ih => exact List.forall_mem_cons.2 ⟨rfl, ih⟩
  | case2 => exact List.forall_mem_nil _

theorem length_words : ∀ bs : Bytes, (words bs).length = bs.length / 4
  | [] | [_] | [_, _] | [_, _, _] => by simp [words]
  | _ :: _ :: _ :: _ :: rest => by
      simp only [words, List.length_cons, length_words rest]
      omega

theorem length_of_mem_groupWords {ws : List Bytes} (h : ∀ w ∈ ws, w.length = 4) :
    ∀ key ∈ groupWords ws, key.length = 16 := by
  fun_induction groupWords ws with
  | case1 a b c d rest ih =>
      simp only [List.forall_mem_cons] at h
      rcases h with ⟨ha, hb, hc, hd, hrest⟩
      exact List.forall_mem_cons.2 ⟨by simp [ha, hb, hc, hd], ih hrest⟩
  | case2 => exact List.forall_mem_nil _

theorem length_headD {ws : List Bytes} (h : ∀ w ∈ ws, w.length = 4) (hne : ws ≠ []) :
    (ws.headD []).length = 4 := by
  cases ws with
  | nil => exact absurd rfl hne
  | cons w ws => exact h w List.mem_cons_self

@[simp] theorem length_rotateWord (w : Bytes) : (rotateWord w).length = w.length := by
  cases w <;> simp [rotateWord]

/-- A word of the key schedule is as long as those that it is made of. -/
theorem length_of_mem_extendKey (size : KeySize) (n i : Nat) {ws : List Bytes}
    (h : ∀ w ∈ ws, w.length = 4) (hcount : size.words ≤ ws.length) :
    ∀ w ∈ extendKey size n i ws, w.length = 4 := by
  induction n generalizing i ws with
  | zero => exact h
  | succ n ih =>
      have hpos : 0 < size.words := by
        cases size <;> decide
      have hlast : (ws.headD []).length = 4 := length_headD h (List.length_pos_iff.1 (by omega))
      have hfirst : ((ws.drop (size.words - 1)).headD []).length = 4 := by
        refine length_headD (fun w hw => h w (List.mem_of_mem_drop hw)) ?_
        rw [← List.length_pos_iff, List.length_drop]
        omega
      refine ih (i + 1) (List.forall_mem_cons.2 ⟨?_, h⟩) (Nat.le_succ_of_le hcount)
      generalize ws.headD [] = last at hlast ⊢
      generalize (ws.drop (size.words - 1)).headD [] = first at hfirst ⊢
      repeat' split
      all_goals simp [hlast, hfirst]

theorem length_of_mem_roundKeys (size : KeySize) (key : Octets size.length) :
    ∀ k ∈ roundKeys size key, k.length = 16 := by
  refine length_of_mem_groupWords fun w hw => ?_
  refine length_of_mem_extendKey size _ _ ?_ ?_ w (List.mem_reverse.1 hw)
  · exact fun w hw => length_of_mem_words w (List.mem_reverse.1 hw)
  · simp [length_words, KeySize.length]

end SecureBoot.Aes
