import SecureBoot.Cipher.Cbc
import SecureBoot.Proofs.Aes

/-!
# Cbc — strings that were encrypted are decrypted

Blocks are decrypted one after the other, each with the encrypted block before it
(`decryptBlocks?_encryptBlocks`), and the padding is taken off again (`unpad?_pad`).  Together these
give `decrypt?_encrypt`, for a key of any size.
-/

namespace SecureBoot.Cbc

/-! ## Blocks -/

section Blocks

variable {keys : List Bytes} {previous data : Bytes}

/-- A block in front of a string is decrypted alone. -/
theorem decryptBlocks?_append {block : Bytes} (h : block.length = blockLength) :
    decryptBlocks? keys previous (block ++ data) =
      (decryptBlocks? keys block data).map
        (xorBytes previous (Aes.decryptBlock keys block) ++ ·) := by
  have htake : (block ++ data).take blockLength = block := List.take_left' h
  have hdrop : (block ++ data).drop blockLength = data := List.drop_left' h
  cases htext : block ++ data with
  | nil =>
      rw [(List.append_eq_nil_iff.1 htext).1] at h
      cases h
  | cons b bs =>
      rw [htext] at htake hdrop
      rw [decryptBlocks?]
      simp only [htake, hdrop, h, if_true]

theorem length_take_of_mod (h : data ≠ []) (hdata : data.length % blockLength = 0) :
    (data.take blockLength).length = blockLength ∧
      (data.drop blockLength).length % blockLength = 0 := by
  have hpos := List.length_pos_iff.2 h
  simp only [List.length_take, List.length_drop, blockLength] at hdata ⊢
  omega

theorem length_encryptBlocks (hkeys : ∀ key ∈ keys, key.length = 16)
    (hprevious : previous.length = blockLength) (hdata : data.length % blockLength = 0) :
    (encryptBlocks keys previous data).length = data.length := by
  fun_induction encryptBlocks keys previous data with
  | case1 => rfl
  | case2 previous b bs block ih =>
      rcases length_take_of_mod (List.cons_ne_nil b bs) hdata with ⟨hfront, hrest⟩
      have hblock : block.length = blockLength :=
        Aes.length_encryptBlock hkeys (by rw [length_xorBytes, hprevious, hfront]; rfl)
      have hwhole := congrArg List.length (List.take_append_drop blockLength (b :: bs))
      rw [List.length_append, hfront] at hwhole
      rw [List.length_append, ih hblock hrest, hblock, hwhole]

theorem decryptBlocks?_encryptBlocks (hkeys : ∀ key ∈ keys, key.length = 16)
    (hprevious : previous.length = blockLength) (hdata : data.length % blockLength = 0) :
    decryptBlocks? keys previous (encryptBlocks keys previous data) = some data := by
  fun_induction encryptBlocks keys previous data with
  | case1 => simp [decryptBlocks?]
  | case2 previous b bs block ih =>
      rcases length_take_of_mod (List.cons_ne_nil b bs) hdata with ⟨hfront, hrest⟩
      have hcombined : (xorBytes previous ((b :: bs).take blockLength)).length = 16 := by
        rw [length_xorBytes, hprevious, hfront]
        rfl
      have hblock : block.length = blockLength := Aes.length_encryptBlock hkeys hcombined
      have hback : xorBytes previous (Aes.decryptBlock keys block) =
          (b :: bs).take blockLength := by
        rw [Aes.decryptBlock_encryptBlock hkeys hcombined,
          xorBytes_comm previous ((b :: bs).take blockLength), xorBytes_comm previous]
        exact xorBytes_cancel (Nat.le_of_eq (hfront.trans hprevious.symm))
      rw [decryptBlocks?_append hblock, ih hblock hrest, Option.map_some, hback,
        List.take_append_drop]

end Blocks

/-! ## Padding -/

theorem length_pad (data : Bytes) :
    (pad data).length % blockLength = 0 ∧ (pad data).length ≤ data.length + blockLength := by
  simp only [pad, List.length_append, List.length_replicate, blockLength]
  omega

theorem unpad?_pad (data : Bytes) : unpad? (pad data) = some data := by
  have hcount : ∃ k < 16, blockLength - data.length % blockLength = k + 1 := by
    refine ⟨blockLength - data.length % blockLength - 1, ?_⟩
    simp only [blockLength]
    omega
  rcases hcount with ⟨k, hk, hcount⟩
  have hlast : (UInt8.ofNat (k + 1)).toNat = k + 1 := by
    rw [UInt8.toNat_ofNat']
    omega
  rw [pad, hcount]
  -- The padding is not empty, and each of its octets says how long it is.
  generalize UInt8.ofNat (k + 1) = last at hlast ⊢
  have hreverse : (data ++ List.replicate (k + 1) last).reverse =
      last :: (List.replicate k last ++ data.reverse) := by
    simp [List.replicate_succ']
  have hlength : (data ++ List.replicate (k + 1) last).length - (k + 1) = data.length := by
    simp
  simp only [unpad?, hreverse, hlast, hlength, List.drop_left, List.take_left]
  exact if_pos ⟨Nat.succ_pos k, hk, trivial⟩

/-! ## Strings -/

section Strings

variable (size : Aes.KeySize) (key : Octets size.length) (start : Octets blockLength) (data : Bytes)

theorem length_encrypt_le :
    (encrypt size key start data).length ≤ data.length + blockLength := by
  rw [encrypt, length_encryptBlocks (Aes.length_of_mem_roundKeys size key) start.length_toBytes
    (length_pad data).1]
  exact (length_pad data).2

/-- A string that was encrypted is decrypted. -/
theorem decrypt?_encrypt : decrypt? size key start (encrypt size key start data) = some data := by
  have hblocks := decryptBlocks?_encryptBlocks (Aes.length_of_mem_roundKeys size key)
    start.length_toBytes (length_pad data).1
  rw [decrypt?, encrypt, hblocks]
  exact unpad?_pad data

end Strings

end SecureBoot.Cbc
