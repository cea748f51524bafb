import SecureBoot.Proofs.Padding
import SecureBoot.Proofs.Writer

/-!
# Saving — what keys, blocks and images bring across to a writer

Everything that can be saved is written in pieces (`Savable.pieces`), and the pieces together are
its octets.  To a writer with a limit it comes across up to the limit, however the writer cuts the
pieces up, and saving goes well exactly if the limit is not exceeded
(`saving_writes_up_to_limit`).

A block that is saved with the rest of its sector is the signature sector of the image that was put
together with it (`SignatureBlock.accepted_save_eq_drop`).
-/

namespace SecureBoot

open Writer (WrittenUpTo)

/-- What can be saved: the hash of a key, a block with or without the rest of its sector, and whole
signed images. -/
inductive Savable where
  | keyHash (key : KeyRecord)
  | signatureBlock (block : SignatureBlock) (padded : Bool)
  | bootImage (image : BootImage)
  | otaImage (image : OtaImage)

namespace Savable

def save : Savable → Sink → Sink × Sink.Result
  | keyHash key, sink => key.saveHash sink
  | signatureBlock block padded, sink => block.save padded sink
  | bootImage image, sink => image.save sink
  | otaImage image, sink => image.save sink

/-- The strings that are written, one after the other. -/
def pieces : Savable → List Bytes
  | keyHash key => [key.hash.toBytes]
  | signatureBlock block padded => block.toBytes :: Image.fillPieces (if padded then 2880 else 0)
  | bootImage image => [image.toBytes]
  | otaImage image => [image.toBytes]

/-- All that there is to be saved. -/
def octets : Savable → Bytes
  | keyHash key => key.hash.toBytes
  | signatureBlock block padded =>
    if padded then block.toBytes ++ List.replicate 2880 0xff else block.toBytes
  | bootImage image => image.toBytes
  | otaImage image => image.toBytes

theorem flatten_pieces (saved : Savable) : saved.pieces.flatten = saved.octets := by
  cases saved with
  | keyHash key => exact List.flatten_singleton
  | signatureBlock block padded =>
      rw [pieces, List.flatten_cons, Image.flatten_fillPieces]
      cases padded with
      | false => exact List.append_nil _
      | true => rfl
  | bootImage image => exact List.flatten_singleton
  | otaImage image => exact List.flatten_singleton

/-- Saving is nothing but writing the pieces. -/
theorem save_eq (saved : Savable) (sink : Sink) :
    saved.save sink = Sink.writer.writeEach sink saved.pieces := by
  have hwhole (data : Bytes) : sink.writeAll data = Sink.writer.writeEach sink [data] := by
    rw [Sink.writeAll_eq, Writer.writeEach]
    rcases Sink.writer.writeAll sink data with ⟨after, result⟩
    cases result with
    | ok => rfl
    | failed => rfl
    | stalled => rfl
  cases saved with
  | keyHash key => exact hwhole key.hash.toBytes
  | signatureBlock block padded => exact Sink.writeEach_eq sink _
  | bootImage image => exact hwhole image.toBytes
  | otaImage image => exact hwhole image.toBytes

/-- To any writer with a limit, the octets come across up to the limit. -/
theorem exists_writtenUpTo {W : Type} {writer : Writer W} {limit : Option Nat}
    {Holds : W → Bytes → Prop} (h : writer.Bounded limit Holds) (saved : Savable) {w : W}
    (hempty : Holds w []) :
    ∃ after result accepted, writer.writeEach w saved.pieces = (after, result) ∧
      Holds after accepted ∧ WrittenUpTo limit saved.octets accepted result := by
  have hfits : Writer.Fits limit [] := fun _ _ => Nat.zero_le _
  rcases h.writeEach hempty hfits saved.pieces with
    ⟨after, result, accepted, hwrite, hholds, houtcome⟩
  rw [List.nil_append, flatten_pieces] at houtcome
  exact ⟨after, result, accepted, hwrite, hholds, houtcome.writtenUpTo⟩

theorem exists_save {step limit : Option Nat} (hstep : step ≠ some 0) (saved : Savable) :
    ∃ sink result, saved.save (Sink.empty step limit) = (sink, result) ∧
      WrittenUpTo limit saved.octets sink.accepted result := by
  rcases exists_writtenUpTo (Sink.bounded_writer hstep) saved (Sink.holding_empty step limit) with
    ⟨sink, result, accepted, hwrite, hholds, hwritten⟩
  rw [← hholds.accepted_eq] at hwritten
  exact ⟨sink, result, (save_eq saved _).trans hwrite, hwritten⟩

end Savable

/-! ## Signature sectors -/

/-- A saved block with the rest of its sector. -/
theorem SignatureBlock.accepted_save (block : SignatureBlock) :
    (block.save true (Sink.empty none none)).1.accepted =
      block.toBytes ++ BootImage.sectorFill := by
  have hstep : (none : Option Nat) ≠ some 0 := nofun
  rcases (Savable.signatureBlock block true).exists_save hstep with ⟨sink, result, hsave, hwritten⟩
  have hsave' : block.save true (Sink.empty none none) = (sink, result) := hsave
  rw [hsave']
  exact hwritten.accepted_eq

/-- It is the last sector of an image that has been put together with the block. -/
theorem SignatureBlock.accepted_save_eq_drop (front : Bytes) (block : SignatureBlock) :
    (block.save true (Sink.empty none none)).1.accepted =
      (front ++ block.toBytes ++ BootImage.sectorFill).drop
        ((front ++ block.toBytes ++ BootImage.sectorFill).length - 4096) := by
  have hfill : BootImage.sectorFill.length = 2880 := Image.length_fill 2880
  rw [accepted_save, BootImage.length_sub_sector block.length_toBytes hfill, List.append_assoc,
    List.drop_left]

/-- The signature sector of a signed image is the block in it with the rest of its sector. -/
theorem BootImage.octets_block_of_run_sign {World σ : Type} {image : Bytes} {key : KeyRecord}
    {signer : Signer (StateM World) σ} {world world' : World} {signed : BootImage}
    (h : (sign image key signer).run world = (.ok signed, world')) :
    (Savable.signatureBlock signed.block true).octets =
      signed.toBytes.drop (signed.toBytes.length - 4096) := by
  rcases exists_of_run_sign h with ⟨signature, rfl⟩
  rw [block_assemble, toBytes_assemble, ← SignatureBlock.accepted_save_eq_drop,
    SignatureBlock.accepted_save]
  rfl

/-- What is saved comes across to a writer with a limit octet by octet and in order, up to the
limit, whatever the writer takes at once; saving goes well exactly if all of it fits, and fails
otherwise.  All of it is a block, a block with the rest of its sector, a hash or an image; the
sector is the last one of an image that has been signed. -/
theorem saving_writes_up_to_limit :
    (∀ (saved : Savable) (step limit : Option Nat), step ≠ some 0 →
      ∃ sink result, saved.save (Sink.empty step limit) = (sink, result) ∧
        WrittenUpTo limit saved.octets sink.accepted result) ∧
    (∀ (W : Type) (writer : Writer W) (limit : Option Nat) (Holds : W → Bytes → Prop),
      writer.Bounded limit Holds → ∀ (saved : Savable) (w : W), Holds w [] →
      ∃ after result accepted, writer.writeEach w saved.pieces = (after, result) ∧
        Holds after accepted ∧ WrittenUpTo limit saved.octets accepted result) ∧
    (∀ (saved : Savable) (sink : Sink),
      saved.save sink = Sink.writer.writeEach sink saved.pieces) ∧
    (∀ (key : KeyRecord) (block : SignatureBlock),
      (Savable.keyHash key).octets.length = 32 ∧
      (Savable.signatureBlock block false).octets.length = 1216 ∧
      (Savable.signatureBlock block true).octets.length = 4096) ∧
    ∀ (World σ : Type) (image : Bytes) (key : KeyRecord) (signer : Signer (StateM World) σ)
      (world world' : World) (signed : BootImage),
      (BootImage.sign image key signer).run world = (.ok signed, world') →
      (Savable.signatureBlock signed.block true).octets =
        signed.toBytes.drop (signed.toBytes.length - 4096) := by
  refine ⟨?_, ?_, Savable.save_eq, ?_, ?_⟩
  · intro saved step limit hstep
    exact saved.exists_save hstep
  · intro W writer limit Holds h saved w hempty
    exact saved.exists_writtenUpTo h hempty
  · intro key block
    refine ⟨key.hash.length_toBytes, block.length_toBytes, ?_⟩
    have hsector : (block.toBytes ++ List.replicate 2880 0xff).length = 1216 + 2880 := by
      rw [List.length_append, block.length_toBytes, List.length_replicate]
    exact hsector
  · intro World σ image key signer world world' signed h
    exact BootImage.octets_block_of_run_sign h

/-- The signature sector of a signed image, saved to sinks that take a hundred octets at once: one
is full in the middle of the rest of the sector, the other just at its end.  A third sink takes a
hash octet by octet. -/
theorem saving_writes_up_to_limit_samples :
    (∃ signed sink sink', (BootImage.sign [] KeyRecord.blank
        (Signer.presigned (Octets.fill 384 0) : Signer (StateM Unit) Empty)).run () =
          (.ok signed, ()) ∧
      (Savable.signatureBlock signed.block true).save (Sink.empty (some 100) (some 1300)) =
        (sink, .failed) ∧
      sink.accepted = (signed.toBytes.drop (signed.toBytes.length - 4096)).take 1300 ∧
      (Savable.signatureBlock signed.block true).save (Sink.empty (some 100) (some 4096)) =
        (sink', .ok) ∧
      sink'.accepted = (signed.toBytes.drop (signed.toBytes.length - 4096)).take 4096) ∧
    ∃ sink, Sink.writer.writeEach (Sink.empty (some 1) none)
        (Savable.keyHash KeyRecord.blank).pieces = (sink, .ok) ∧
      sink.accepted = KeyRecord.blank.hash.toBytes := by
  rcases saving_writes_up_to_limit with ⟨hsinks, hwriters, -, hlengths, hsigned⟩
  refine ⟨?_, ?_⟩
  · have hsign : (BootImage.sign [] KeyRecord.blank
        (Signer.presigned (Octets.fill 384 0) : Signer (StateM Unit) Empty)).run () =
          (.ok (BootImage.assemble [] (Image.digestBoot []) KeyRecord.blank
            (Octets.fill 384 0)), ()) :=
      BootImage.run_sign KeyRecord.blank rfl
    generalize BootImage.assemble [] (Image.digestBoot []) KeyRecord.blank (Octets.fill 384 0) =
      signed at hsign
    have hsector := hsigned _ _ _ _ _ _ _ signed hsign
    have hlength := (hlengths KeyRecord.blank signed.block).2.2
    rcases hsinks (.signatureBlock signed.block true) (some 100) (some 1300) (by decide) with
      ⟨sink, result, hsave, hwritten⟩
    rcases hsinks (.signatureBlock signed.block true) (some 100) (some 4096) (by decide) with
      ⟨sink', result', hsave', hwritten'⟩
    have hfailed : result = .failed := by
      refine hwritten.failed_iff.2 fun hfits => ?_
      have hle := hfits 1300 rfl
      omega
    have hok : result' = .ok := by
      refine hwritten'.ok_iff.2 ?_
      rintro _ ⟨⟩
      exact Nat.le_of_eq hlength
    subst hfailed hok
    refine ⟨signed, sink, sink', hsign, hsave, ?_, hsave', ?_⟩
    · rw [← hsector]
      exact hwritten.accepted_eq
    · rw [← hsector]
      exact hwritten'.accepted_eq
  · rcases hwriters Sink Sink.writer none (Sink.Holding (some 1) none)
        (Sink.bounded_writer (by decide)) (.keyHash KeyRecord.blank) _ (Sink.holding_empty _ _) with
      ⟨sink, result, accepted, hwrite, hholds, hwritten⟩
    have hok : result = .ok := hwritten.ok_iff.2 nofun
    subst hok
    exact ⟨sink, hwrite, hholds.accepted_eq.trans hwritten.accepted_eq⟩

end SecureBoot
