import SecureBoot.Der.Element
import SecureBoot.Proofs.ByteOrder

/-!
# Der — reading finds exactly what was written

An element has one written form only.  A length in its shortest form is read back
(`takeLength_encodeLength`), and no other form of it is read (`eq_encodeLength_append`); from this,
the readers of one element and of many are characterised by what `Element.encode` writes:

* `takeElement_eq_some_iff`: an element at the front of a string;
* `elements?_eq_some_iff` and `members?_eq_some_iff`: a whole string of elements;
* `element?_eq_some_iff`: a single element.
-/

namespace SecureBoot.Der

/-! ## Lengths -/

theorem takeLength_long {k n : Nat} (rest : Bytes) (hk : 0 < k) (hk4 : k ≤ 4)
    (hlow : 0x80 ≤ n ∧ 1 <<< (8 * (k - 1)) ≤ n) (hhigh : n < 256 ^ k) (hmax : n ≤ maxLength) :
    takeLength (UInt8.ofNat (0x80 + k) :: bigEndianBytes k n ++ rest) = some (n, rest) := by
  have htag : (UInt8.ofNat (0x80 + k)).toNat = 0x80 + k := by
    rw [UInt8.toNat_ofNat']
    omega
  have htake := takeExactly_append (bigEndianBytes k n) rest
  rw [length_bigEndianBytes] at htake
  have hvalue : bigEndian (bigEndianBytes k n) = n := by
    rw [bigEndian, bigEndianBytes, List.reverse_reverse, littleEndian_littleEndianBytes,
      Nat.mod_eq_of_lt hhigh]
  simp only [takeLength, List.cons_append, htag, Nat.add_sub_cancel_left, htake, hvalue]
  rw [if_neg (by omega), if_neg (by omega), if_pos ⟨hlow.1, hlow.2, hmax⟩]

/-- Reading a written length gives it back. -/
theorem takeLength_encodeLength {n : Nat} (h : n ≤ maxLength) (rest : Bytes) :
    takeLength (encodeLength n ++ rest) = some (n, rest) := by
  have hmax : maxLength = 268435455 := rfl
  simp only [encodeLength]
  split
  · have hsmall : (UInt8.ofNat n).toNat = n := by
      rw [UInt8.toNat_ofNat']
      omega
    simp only [List.cons_append, List.nil_append, takeLength, hsmall]
    rw [if_pos (by omega)]
  · split
    · exact takeLength_long rest (k := 1) (by decide) (by decide) ⟨by omega, by omega⟩ (by omega) h
    · split
      · exact takeLength_long rest (k := 2) (by decide) (by decide) ⟨by omega, by omega⟩
          (by omega) h
      · split
        · exact takeLength_long rest (k := 3) (by decide) (by decide) ⟨by omega, by omega⟩
            (by omega) h
        · exact takeLength_long rest (k := 4) (by decide) (by decide) ⟨by omega, by omega⟩
            (by omega) h

theorem takeExactly_eq_some_iff {n : Nat} {bs front rest : Bytes} :
    takeExactly n bs = some (front, rest) ↔ front.length = n ∧ bs = front ++ rest := by
  constructor
  · intro h
    simp only [takeExactly] at h
    split at h
    · next hlength =>
      cases h
      exact ⟨hlength, (List.take_append_drop n bs).symm⟩
    · cases h
  · rintro ⟨rfl, rfl⟩
    exact takeExactly_append front rest

/-- Digits without superfluous ones in front are the long form of the length that they are. -/
theorem encodeLength_bigEndian {digits : Bytes} (hpos : 0 < digits.length)
    (hfour : digits.length ≤ 4) (hlong : 0x80 ≤ bigEndian digits)
    (hlow : 1 <<< (8 * (digits.length - 1)) ≤ bigEndian digits) :
    encodeLength (bigEndian digits) = UInt8.ofNat (0x80 + digits.length) :: digits := by
  have hlt : bigEndian digits < 256 ^ digits.length := by
    simpa [bigEndian] using littleEndian_lt digits.reverse
  have hback := bigEndianBytes_bigEndian digits
  -- A number of so many digits passes all shorter forms.
  have hcases : digits.length = 1 ∨ digits.length = 2 ∨ digits.length = 3 ∨ digits.length = 4 := by
    omega
  simp only [encodeLength]
  rcases hcases with hlength | hlength | hlength | hlength <;>
    simp only [hlength] at hlt hlow hback ⊢
  · rw [if_neg (by omega), if_pos (by omega), hback]
    rfl
  · rw [if_neg (by omega), if_neg (by omega), if_pos (by omega), hback]
    rfl
  · rw [if_neg (by omega), if_neg (by omega), if_neg (by omega), if_pos (by omega), hback]
    rfl
  · rw [if_neg (by omega), if_neg (by omega), if_neg (by omega), if_neg (by omega), hback]
    rfl

/-- A length that is read was written in its shortest form. -/
theorem eq_encodeLength_append {bs rest : Bytes} {n : Nat} (h : takeLength bs = some (n, rest)) :
    n ≤ maxLength ∧ bs = encodeLength n ++ rest := by
  cases bs with
  | nil => cases h
  | cons b bs =>
      simp only [takeLength] at h
      split at h
      · next hshort =>
        cases h
        refine ⟨Nat.le_trans (Nat.le_of_lt hshort) (by decide), ?_⟩
        simp [encodeLength, hshort]
      · next hnot =>
        split at h
        · cases h
        · next hcount =>
          split at h
          · cases h
          -- The digits were checked to be needed, so nothing but the long form has them.
          · next digits rest' htake =>
            rcases takeExactly_eq_some_iff.1 htake with ⟨hlength, rfl⟩
            split at h
            · next hshortest =>
              cases h
              have hlow : 1 <<< (8 * (digits.length - 1)) ≤ bigEndian digits := by
                rw [hlength]
                exact hshortest.2.1
              have hform := encodeLength_bigEndian (by omega) (by omega) hshortest.1 hlow
              have hb : UInt8.ofNat (0x80 + digits.length) = b := by
                rw [hlength]
                have hsum : 0x80 + (b.toNat - 0x80) = b.toNat := by omega
                rw [hsum, UInt8.ofNat_toNat]
              refine ⟨hshortest.2.2, ?_⟩
              rw [hform, hb, List.cons_append]
            · cases h

/-! ## Elements -/

/-- Reading a written element gives it back. -/
theorem takeElement_encode {e : Element} (htag : Tag.isValid e.tag = true)
    (hlength : e.content.length ≤ maxLength) (rest : Bytes) :
    takeElement (e.encode ++ rest) = some (e, rest) := by
  simp only [Element.encode, List.cons_append, List.append_assoc, takeElement, htag, if_true,
    takeLength_encodeLength hlength, takeExactly_append]

/-- Whether an element can be read: its tag is one that may stand there, and its length can be
written. -/
structure Element.Readable (e : Element) : Prop where
  tag_isValid : Tag.isValid e.tag = true
  length_le : e.content.length ≤ maxLength

theorem takeElement_eq_some_iff {bs rest : Bytes} {e : Element} :
    takeElement bs = some (e, rest) ↔ e.Readable ∧ bs = e.encode ++ rest := by
  constructor
  · intro h
    cases bs with
    | nil => cases h
    | cons tag bs =>
        simp only [takeElement] at h
        split at h
        · next htag =>
          split at h
          · cases h
          · next hlength =>
            split at h
            · cases h
            · next hcontent =>
              cases h
              rcases eq_encodeLength_append hlength with ⟨hmax, rfl⟩
              rcases takeExactly_eq_some_iff.1 hcontent with ⟨hcount, rfl⟩
              exact ⟨⟨htag, hcount ▸ hmax⟩, by simp [Element.encode, hcount]⟩
        · cases h
  · rintro ⟨he, rfl⟩
    exact takeElement_encode he.tag_isValid he.length_le rest

theorem element?_eq_some_iff {bs : Bytes} {e : Element} :
    element? bs = some e ↔ e.Readable ∧ bs = e.encode := by
  have htake : takeElement bs = some (e, []) ↔ e.Readable ∧ bs = e.encode := by
    rw [takeElement_eq_some_iff, List.append_nil]
  rw [← htake, element?]
  split
  · next e' hfound => simp [hfound]
  · next hnot =>
    constructor
    · intro h
      cases h
    · intro h
      exact absurd h (hnot e)

theorem Element.encode_ne_nil (e : Element) : e.encode ≠ [] := by
  simp [Element.encode]

theorem element?_encode {e : Element} (h : e.Readable) : element? e.encode = some e :=
  element?_eq_some_iff.2 ⟨h, rfl⟩

theorem elements?_encode_append {e : Element} (he : e.Readable) (rest : Bytes) :
    elements? (e.encode ++ rest) = (elements? rest).map (e :: ·) := by
  have htake := takeElement_encode he.tag_isValid he.length_le rest
  simp only [Element.encode, List.cons_append, List.append_assoc] at htake ⊢
  rw [elements?]
  split
  · next hnone => cases hnone.symm.trans htake
  · next hfound => cases hfound.symm.trans htake; rfl

theorem elements?_eq_some_iff {bs : Bytes} {es : List Element} :
    elements? bs = some es ↔ (∀ e ∈ es, e.Readable) ∧ bs = es.flatMap Element.encode := by
  constructor
  · intro h
    fun_induction elements? bs generalizing es with
    | case1 =>
        cases h
        exact ⟨List.forall_mem_nil _, rfl⟩
    | case2 => cases h
    | case3 b bs e rest htake ih =>
        rcases Option.map_eq_some_iff.1 h with ⟨more, hmore, rfl⟩
        rcases takeElement_eq_some_iff.1 htake with ⟨he, hbs⟩
        rcases ih hmore with ⟨hall, rfl⟩
        exact ⟨List.forall_mem_cons.2 ⟨he, hall⟩, by rw [hbs, List.flatMap_cons]⟩
  · rintro ⟨hall, rfl⟩
    induction es with
    | nil => rw [List.flatMap_nil, elements?]
    | cons e es ih =>
        rcases List.forall_mem_cons.1 hall with ⟨he, hes⟩
        rw [List.flatMap_cons, elements?_encode_append he, ih hes]
        rfl

/-- The members of an element with a tag are those that it was constructed of. -/
theorem members?_eq_some_iff {tag : UInt8} {e : Element} {es : List Element} :
    e.members? tag = some es ↔ (∀ e ∈ es, e.Readable) ∧ e = construct tag es := by
  rcases e with ⟨tag', content⟩
  by_cases htag : tag' = tag
  · simp [Element.members?, Element.content?, construct, htag, elements?_eq_some_iff]
  · simp [Element.members?, Element.content?, construct, htag]

theorem members?_construct (tag : UInt8) {es : List Element} (h : ∀ e ∈ es, e.Readable) :
    (construct tag es).members? tag = some es :=
  members?_eq_some_iff.2 ⟨h, rfl⟩

end SecureBoot.Der
