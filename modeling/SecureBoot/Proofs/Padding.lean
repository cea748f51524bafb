import Mathlib.Order.Bounds.Defs
import SecureBoot.Proofs.Signing
import SecureBoot.Saving

/-!
# Padding — images in whole sectors, and the digest that is taken piece by piece

* `Image.isLeast_length_align`: padding makes the least number of whole sectors of an image.  Two
  images are padded to the same octets exactly if one is the other with some of its padding
  (`Image.align_eq_align_iff`), and then, and only then, they are signed to the same octets
  (`align_least_and_collisions`).
* `Image.fillPieces_eq`: the pieces in which padding is hashed or written, all of them full but the
  last.
* `Image.FillLoop` is the loop that hashes padding, turn by turn.  From every start it comes to its
  end in one way (`Image.fillLoop_iff`), so the digest is that of the padded image
  (`digest_streams_padding`).
-/

namespace SecureBoot

namespace Image

/-! ## Whole sectors -/

theorem length_align (image : Bytes) :
    (align image).length = image.length + paddingLength image.length := by
  rw [align, List.length_append, length_fill]

theorem paddingLength_lt (length : Nat) : paddingLength length < 4096 :=
  Nat.mod_lt _ (by decide)

/-- Some of the padding done leaves the rest to do. -/
theorem paddingLength_add {length k : Nat} (h : k ≤ paddingLength length) :
    paddingLength (length + k) = paddingLength length - k := by
  unfold paddingLength Layout.sectorLength at h ⊢
  omega

theorem isLeast_length_align (image : Bytes) :
    IsLeast {length | 4096 ∣ length ∧ image.length ≤ length} (align image).length := by
  have hmod : (align image).length % 4096 = 0 := length_align_mod image
  have hlength := length_align image
  have hlt := paddingLength_lt image.length
  refine ⟨⟨Nat.dvd_of_mod_eq_zero hmod, by omega⟩, ?_⟩
  rintro length ⟨hdvd, hle⟩
  -- Two multiples of the sector length are equal or a whole sector apart.
  have hsector := Nat.mod_eq_zero_of_dvd hdvd
  omega

theorem align_of_whole {image : Bytes} (h : image.length % 4096 = 0) :
    align image = image := by
  have hpadding : paddingLength image.length = 0 := by
    unfold paddingLength
    rw [show image.length % Layout.sectorLength = 0 from h]
    rfl
  rw [align, hpadding, fill, List.replicate_zero, List.append_nil]

theorem align_align (image : Bytes) : align (align image) = align image :=
  align_of_whole (length_align_mod image)

/-! ## Images with the same padded form -/

theorem align_append_fill {image : Bytes} {k : Nat} (h : k ≤ paddingLength image.length) :
    align (image ++ fill k) = align image := by
  have hsum : k + (paddingLength image.length - k) = paddingLength image.length := by omega
  rw [align, List.length_append, length_fill, paddingLength_add h, List.append_assoc, fill, fill,
    List.replicate_append_replicate, hsum, align, fill]

theorem exists_of_align_eq {x y : Bytes} (hlength : x.length ≤ y.length)
    (h : align x = align y) : ∃ k ≤ paddingLength x.length, y = x ++ fill k := by
  have hx : x <+: align y := h ▸ List.prefix_append x _
  have hprefix : x <+: y := List.prefix_of_prefix_length_le hx (List.prefix_append y _) hlength
  rcases hprefix with ⟨rest, rfl⟩
  -- What the longer image has more is a part of the padding of the shorter one.
  have hfill : rest ++ fill (paddingLength (x ++ rest).length) = fill (paddingLength x.length) := by
    rw [align, align, List.append_assoc] at h
    exact (List.append_cancel_left h).symm
  have hrest : rest <+: fill (paddingLength x.length) := ⟨_, hfill⟩
  rcases List.prefix_replicate_iff.1 hrest with ⟨hle, heq⟩
  refine ⟨rest.length, hle, ?_⟩
  rw [fill, ← heq]

theorem align_eq_align_iff {x y : Bytes} (hlength : x.length ≤ y.length) :
    align x = align y ↔ ∃ k ≤ paddingLength x.length, y = x ++ fill k := by
  constructor
  · exact exists_of_align_eq hlength
  · rintro ⟨k, hk, rfl⟩
    exact (align_append_fill hk).symm

end Image

/-! ### Signed -/

namespace BootImage

/-- An image that has been signed shows its padded form, so no two padded forms are signed to the
same octets. -/
theorem toBytes_assemble_eq_iff {x y : Bytes} (key : KeyRecord) (signature : Signature) :
    (assemble x (Image.digestBoot x) key signature).toBytes =
        (assemble y (Image.digestBoot y) key signature).toBytes ↔
      Image.align x = Image.align y := by
  constructor
  · intro h
    rw [← payload_assemble x (Image.digestBoot x) key signature,
      ← payload_assemble y (Image.digestBoot y) key signature, BootImage.ext h]
  · intro h
    rw [toBytes_assemble, toBytes_assemble, Image.digestBoot_eq, Image.digestBoot_eq, h]

theorem run_sign {World σ : Type} {image : Bytes} {signer : Signer (StateM World) σ}
    {signature : Signature} {world world' : World} (key : KeyRecord)
    (h : (signer (Image.digestBoot image)).run world = (.ok signature, world')) :
    (sign image key signer).run world =
      (.ok (assemble image (Image.digestBoot image) key signature), world') := by
  rw [Image.digestBoot_eq] at h ⊢
  rw [sign_eq_map, StateT.run_map, h]
  rfl

theorem exists_of_run_sign {World σ : Type} {image : Bytes} {key : KeyRecord}
    {signer : Signer (StateM World) σ} {world world' : World} {signed : BootImage}
    (h : (sign image key signer).run world = (.ok signed, world')) :
    ∃ signature, signed = assemble image (Image.digestBoot image) key signature := by
  rw [sign_eq_map, ← Image.digestBoot_eq, StateT.run_map] at h
  rcases hanswer : (signer (Image.digestBoot image)).run world with ⟨answer, after⟩
  rw [hanswer] at h
  cases answer with
  | ok signature =>
      cases h
      exact ⟨signature, rfl⟩
  | error failure => cases h

end BootImage

/-- Padding makes the least number of whole sectors, and does nothing the second time.  Images have
one padded form exactly if the longer is the shorter with some of its padding, and this is when they
are signed to the same octets. -/
theorem align_least_and_collisions :
    (∀ image : Bytes,
      IsLeast {length | 4096 ∣ length ∧ image.length ≤ length} (Image.align image).length ∧
      (∃ k, Image.align image = image ++ List.replicate k 0xff) ∧
      Image.align (Image.align image) = Image.align image) ∧
    ∀ x y : Bytes, x.length ≤ y.length →
      (Image.align x = Image.align y ↔
        ∃ k ≤ Image.paddingLength x.length, y = x ++ List.replicate k 0xff) ∧
      ∀ (World σ : Type) (key : KeyRecord) (signature : Signature)
        (signer signer' : Signer (StateM World) σ) (before after before' after' : World),
        (signer (Image.digestBoot x)).run before = (.ok signature, after) →
        (signer' (Image.digestBoot y)).run before' = (.ok signature, after') →
        ∃ signed signed' : BootImage,
          (BootImage.sign x key signer).run before = (.ok signed, after) ∧
          (BootImage.sign y key signer').run before' = (.ok signed', after') ∧
          (signed.toBytes = signed'.toBytes ↔
            ∃ k ≤ Image.paddingLength x.length, y = x ++ List.replicate k 0xff) := by
  refine ⟨?_, ?_⟩
  · intro image
    exact ⟨Image.isLeast_length_align image, ⟨_, rfl⟩, Image.align_align image⟩
  · intro x y hlength
    refine ⟨Image.align_eq_align_iff hlength, ?_⟩
    intro World σ key signature signer signer' before after before' after' hx hy
    refine ⟨_, _, BootImage.run_sign key hx, BootImage.run_sign key hy, ?_⟩
    rw [BootImage.toBytes_assemble_eq_iff]
    exact Image.align_eq_align_iff hlength

/-- One octet and the same octet with an octet of padding are signed to the same octets, but not if
the other octet is a zero. -/
theorem align_least_and_collisions_samples :
    (∃ signed signed' : BootImage,
      (BootImage.sign [0x5a] KeyRecord.blank
        (Signer.presigned (Octets.fill 384 0) : Signer (StateM Unit) Empty)).run () =
          (.ok signed, ()) ∧
      (BootImage.sign [0x5a, 0xff] KeyRecord.blank
        (Signer.presigned (Octets.fill 384 0) : Signer (StateM Unit) Empty)).run () =
          (.ok signed', ()) ∧
      signed.toBytes = signed'.toBytes) ∧
    ∃ signed signed' : BootImage,
      (BootImage.sign [0x5a] KeyRecord.blank
        (Signer.presigned (Octets.fill 384 0) : Signer (StateM Unit) Empty)).run () =
          (.ok signed, ()) ∧
      (BootImage.sign [0x5a, 0] KeyRecord.blank
        (Signer.presigned (Octets.fill 384 0) : Signer (StateM Unit) Empty)).run () =
          (.ok signed', ()) ∧
      signed.toBytes ≠ signed'.toBytes := by
  rcases align_least_and_collisions with ⟨-, hpairs⟩
  have hone : 1 ≤ Image.paddingLength 1 := by decide
  refine ⟨?_, ?_⟩
  · rcases (hpairs [0x5a] [0x5a, 0xff] (by decide)).2 Unit Empty KeyRecord.blank (Octets.fill 384 0)
      (Signer.presigned _) (Signer.presigned _) () () () () rfl rfl with
      ⟨signed, signed', hsign, hsign', hiff⟩
    exact ⟨signed, signed', hsign, hsign', hiff.2 ⟨1, hone, rfl⟩⟩
  · rcases (hpairs [0x5a] [0x5a, 0] (by decide)).2 Unit Empty KeyRecord.blank (Octets.fill 384 0)
      (Signer.presigned _) (Signer.presigned _) () () () () rfl rfl with
      ⟨signed, signed', hsign, hsign', hiff⟩
    refine ⟨signed, signed', hsign, hsign', mt hiff.1 ?_⟩
    rintro ⟨k, -, hzero⟩
    have hrest : ([0] : Bytes) = List.replicate k 0xff := (List.cons.inj hzero).2
    have hmem : 0 ∈ List.replicate k (0xff : UInt8) := hrest ▸ List.mem_singleton_self 0
    exact absurd (List.eq_of_mem_replicate hmem) (by decide)

/-! ## Pieces -/

namespace Image

theorem fillPieces_of_pos {remaining : Nat} (h : 0 < remaining) :
    fillPieces remaining =
      fill (min remaining fillPiece) :: fillPieces (remaining - min remaining fillPiece) := by
  rw [fillPieces, dif_neg (Nat.ne_of_gt h)]

theorem flatten_fillPieces (remaining : Nat) : (fillPieces remaining).flatten = fill remaining := by
  fun_induction fillPieces remaining with
  | case1 => rfl
  | case2 remaining h piece ih =>
      have hpiece : piece + (remaining - piece) = remaining := by omega
      rw [List.flatten_cons, ih, fill, fill, fill, List.replicate_append_replicate, hpiece]

/-- All pieces are full but the last, which is left out if there is nothing left for it. -/
theorem fillPieces_eq (remaining : Nat) :
    fillPieces remaining =
      List.replicate (remaining / 256) (fill 256) ++
        if remaining % 256 = 0 then [] else [fill (remaining % 256)] := by
  fun_induction fillPieces remaining with
  | case1 => rfl
  | case2 remaining h piece ih =>
      rw [ih]
      by_cases hfull : 256 ≤ remaining
      · have hpiece : piece = 256 := Nat.min_eq_right hfull
        have hdiv : remaining / 256 = (remaining - 256) / 256 + 1 := by omega
        have hmod : (remaining - 256) % 256 = remaining % 256 := by omega
        rw [hpiece, hmod, hdiv, List.replicate_succ, List.cons_append]
      -- The last piece takes all that is left.
      · have hle : remaining ≤ 256 := by omega
        have hpiece : piece = remaining := Nat.min_eq_left hle
        have hdiv : remaining / 256 = 0 := by omega
        have hmod : remaining % 256 = remaining := by omega
        rw [hpiece, hdiv, hmod, if_neg h, Nat.sub_self]
        rfl

/-! ### Hashed -/

/-- The loop that hashes padding: from a hasher and a number of octets that remain, turn by turn, to
the pieces that have been hashed and the hasher at the end. -/
inductive FillLoop : Sha256.Hasher → Nat → List Bytes → Sha256.Hasher → Prop where
  | done (hasher : Sha256.Hasher) : FillLoop hasher 0 [] hasher
  | turn {hasher final : Sha256.Hasher} {remaining : Nat} {pieces : List Bytes}
      (remains : 0 < remaining)
      (rest : FillLoop (hasher.update (fill (min remaining fillPiece)))
        (remaining - min remaining fillPiece) pieces final) :
      FillLoop hasher remaining (fill (min remaining fillPiece) :: pieces) final

theorem fillLoop_hashFill (hasher : Sha256.Hasher) (remaining : Nat) :
    FillLoop hasher remaining (fillPieces remaining) (hashFill hasher remaining) := by
  fun_induction hashFill hasher remaining with
  | case1 hasher =>
      rw [fillPieces, dif_pos rfl]
      exact .done hasher
  | case2 hasher remaining h piece ih =>
      rw [fillPieces_of_pos (Nat.pos_of_ne_zero h)]
      exact .turn (Nat.pos_of_ne_zero h) ih

/-- The loop comes to its end from every start, and in one way only. -/
theorem fillLoop_iff {hasher final : Sha256.Hasher} {remaining : Nat} {pieces : List Bytes} :
    FillLoop hasher remaining pieces final ↔
      pieces = fillPieces remaining ∧ final = hashFill hasher remaining := by
  constructor
  · intro h
    induction h with
    | done hasher =>
        rw [fillPieces, hashFill]
        exact ⟨rfl, rfl⟩
    | turn remains _ ih =>
        rw [fillPieces_of_pos remains, hashFill, dif_neg (Nat.ne_of_gt remains), ih.1, ih.2]
        exact ⟨rfl, rfl⟩
  · rintro ⟨rfl, rfl⟩
    exact fillLoop_hashFill hasher remaining

theorem count_hashFill (hasher : Sha256.Hasher) (remaining : Nat) :
    (hashFill hasher remaining).count = hasher.count + remaining := by
  fun_induction hashFill hasher remaining with
  | case1 => rfl
  | case2 hasher remaining h piece ih =>
      have hcount : (hasher.update (fill piece)).count = hasher.count + piece :=
        congrArg (hasher.count + ·) (length_fill piece)
      rw [ih, hcount]
      omega

theorem align_eq_append_flatten (image : Bytes) :
    align image = image ++ (fillPieces (paddingLength image.length)).flatten := by
  rw [flatten_fillPieces, align]

end Image

/-- The digest of an image taken with its padding in pieces is the digest of the padded image.  The
loop that hashes the padding comes to its end in one way, after as many pieces as it takes; together
they are what padding puts behind the image. -/
theorem digest_streams_padding (image : Bytes) :
    Image.digestBoot image = Sha256.digest (Image.align image) ∧
    Image.digestBoot (Image.align image) = Sha256.digest (Image.align image) ∧
    ∃ (pieces : List Bytes) (final : Sha256.Hasher),
      (∀ pieces' final',
        Image.FillLoop (Sha256.Hasher.start.update image) (Image.paddingLength image.length)
          pieces' final' ↔ pieces' = pieces ∧ final' = final) ∧
      Image.digestBoot image = final.finish ∧
      final.count = (Image.align image).length ∧
      Image.align image = image ++ pieces.flatten ∧
      pieces = List.replicate (Image.paddingLength image.length / 256) (List.replicate 256 0xff) ++
        if Image.paddingLength image.length % 256 = 0 then []
        else [List.replicate (Image.paddingLength image.length % 256) 0xff] := by
  refine ⟨Image.digestBoot_eq image, ?_, _, _, fun _ _ => Image.fillLoop_iff, rfl, ?_,
    Image.align_eq_append_flatten image, Image.fillPieces_eq _⟩
  · rw [Image.digestBoot_eq, Image.align_align]
  · have hcount : (Sha256.Hasher.start.update image).count = image.length :=
      Nat.zero_add image.length
    rw [Image.count_hashFill, hcount, Image.length_align]

end SecureBoot
