import SecureBoot.Stream.Source

/-!
# Reader — an image read from anything that hands it out piecemeal

A `Reader` is asked to fill a buffer and answers how many octets it has put at its front, or that it
fails.  Nothing else is known about it: how many octets it gives is up to it, and so is what else it
leaves in the buffer.  `Source.reader` is what a source does.

`Reader.readImage` reads into one buffer until a read gives nothing or fails, however long that
takes.  `Reader.readImage_eq_some_iff` says when it ends, and with what: exactly if there is a run
of reads that give octets (`Reader.Hands`) up to one that stops it (`Reader.Stops`).  For sources it
always ends, and with the result of `Source.readImage`.

`Source.readImage_eq` says what that result is, whatever the lengths of the chunks.
-/

namespace SecureBoot

/-! ## Buffers -/

/-- A buffer after a read, with the number of octets at its front that the read gives.  The others
may have been there before. -/
structure Filled (n : Nat) where
  buffer : Octets n
  count : Nat
  count_le : count ≤ n

namespace Filled

/-- The octets that the read gives. -/
def octets {n : Nat} (filled : Filled n) : Bytes :=
  filled.buffer.toBytes.take filled.count

theorem length_octets {n : Nat} (filled : Filled n) : filled.octets.length = filled.count := by
  rw [octets, List.length_take, Octets.length_toBytes]
  exact Nat.min_eq_left filled.count_le

/-- A buffer with octets copied to its front, as many as it takes. -/
def copy {n : Nat} (buffer : Octets n) (bs : Bytes) : Filled n where
  buffer := ⟨bs.take n ++ buffer.toBytes.drop (bs.take n).length, by
    simp only [List.length_append, List.length_drop, List.length_take, Octets.length_toBytes]
    omega⟩
  count := (bs.take n).length
  count_le := List.length_take_le n bs

theorem octets_copy {n : Nat} (buffer : Octets n) {bs : Bytes} (h : bs.length ≤ n) :
    (copy buffer bs).octets = bs := by
  rw [octets, copy, List.take_left, List.take_of_length_le h]

end Filled

/-! ## Readers -/

/-- What a read does: it is given a buffer, and either fails or gives octets in it. -/
structure Reader (R ε : Type) where
  read : R → Octets Source.imageBuffer → Except ε (Filled Source.imageBuffer) × R

namespace Reader

variable {R ε : Type}

/-- Read on, after the given octets and into the given buffer.  There is no result if the reads go
on for ever. -/
def readAfter (reader : Reader R ε) (image : Bytes) (r : R)
    (buffer : Octets Source.imageBuffer) : Option (Except ε Bytes × R) :=
  match reader.read r buffer with
  | (.error error, after) => some (.error error, after)
  | (.ok filled, after) =>
    if filled.count = 0 then some (.ok image, after)
    else reader |>.readAfter (image ++ filled.octets) after filled.buffer
partial_fixpoint

/-- Read a whole image into a buffer of zeros, and say what the reader is afterwards. -/
def readImage (reader : Reader R ε) (r : R) : Option (Except ε Bytes × R) :=
  reader.readAfter [] r (Octets.fill Source.imageBuffer 0)

/-- Reads one after the other, each into the buffer that the one before has left, and each of them
gives octets: the pieces. -/
inductive Hands (reader : Reader R ε) :
    R → Octets Source.imageBuffer → List Bytes → R → Octets Source.imageBuffer → Prop where
  | nil (r : R) (buffer : Octets Source.imageBuffer) : Hands reader r buffer [] r buffer
  | cons {r next after : R} {buffer last : Octets Source.imageBuffer}
      {filled : Filled Source.imageBuffer} {pieces : List Bytes}
      (read_eq : reader.read r buffer = (.ok filled, next)) (count_ne : filled.count ≠ 0)
      (rest : Hands reader next filled.buffer pieces after last) :
      Hands reader r buffer (filled.octets :: pieces) after last

/-- The read that ends it all: it gives nothing, and then the result is the image, or it fails, and
then the result is its error. -/
inductive Stops (reader : Reader R ε) (r : R) (buffer : Octets Source.imageBuffer)
    (image : Bytes) : Except ε Bytes → R → Prop where
  | atEnd {filled : Filled Source.imageBuffer} {after : R}
      (read_eq : reader.read r buffer = (.ok filled, after)) (count_eq : filled.count = 0) :
      Stops reader r buffer image (.ok image) after
  | failed {error : ε} {after : R} (read_eq : reader.read r buffer = (.error error, after)) :
      Stops reader r buffer image (.error error) after

variable {reader : Reader R ε} {r r' after : R} {buffer buffer' : Octets Source.imageBuffer}
  {image : Bytes} {pieces : List Bytes} {result : Except ε Bytes}

theorem Hands.length_le (h : reader.Hands r buffer pieces r' buffer') :
    ∀ piece ∈ pieces, piece ≠ [] ∧ piece.length ≤ Source.imageBuffer := by
  induction h with
  | nil r buffer => exact nofun
  | @cons _ _ _ _ _ filled _ read_eq count_ne rest ih =>
      refine List.forall_mem_cons.2 ⟨⟨?_, ?_⟩, ih⟩
      · exact List.ne_nil_of_length_pos (filled.length_octets ▸ Nat.pos_of_ne_zero count_ne)
      · exact filled.length_octets ▸ filled.count_le

/-! ### Runs -/

theorem Stops.readAfter_eq (h : reader.Stops r buffer image result after) :
    reader.readAfter image r buffer = some (result, after) := by
  rw [readAfter]
  cases h with
  | atEnd read_eq count_eq => simp only [read_eq, if_pos count_eq]
  | failed read_eq => simp only [read_eq]

theorem Hands.readAfter_eq (h : reader.Hands r buffer pieces r' buffer') (image : Bytes) :
    reader.readAfter image r buffer = reader.readAfter (image ++ pieces.flatten) r' buffer' := by
  induction h generalizing image with
  | nil r buffer => rw [List.flatten_nil, List.append_nil]
  | cons read_eq count_ne rest ih =>
      rw [readAfter]
      simp only [read_eq, if_neg count_ne]
      rw [ih, List.flatten_cons, List.append_assoc]

/-- Reading that has ended has ended in this way. -/
theorem exists_of_readAfter (h : reader.readAfter image r buffer = some (result, after)) :
    ∃ pieces r' buffer', reader.Hands r buffer pieces r' buffer' ∧
      reader.Stops r' buffer' (image ++ pieces.flatten) result after := by
  -- Induction along the loop: what holds if its rest ends so holds of the whole.
  refine readAfter.partial_correctness reader (fun image r buffer ended =>
    ∃ pieces r' buffer', reader.Hands r buffer pieces r' buffer' ∧
      reader.Stops r' buffer' (image ++ pieces.flatten) ended.1 ended.2) ?_ image r buffer
    (result, after) h
  intro rest ih image r buffer ended hended
  rcases hread : reader.read r buffer with ⟨answer, next⟩
  rw [hread] at hended
  cases answer with
  | error error =>
      cases hended
      exact ⟨[], r, buffer, .nil r buffer, .failed hread⟩
  | ok filled =>
      dsimp only at hended
      split at hended
      · next hcount =>
        cases hended
        refine ⟨[], r, buffer, .nil r buffer, ?_⟩
        rw [List.flatten_nil, List.append_nil]
        exact .atEnd hread hcount
      · next hcount =>
        rcases ih _ _ _ _ hended with ⟨pieces, r', buffer', hhands, hstops⟩
        refine ⟨filled.octets :: pieces, r', buffer', .cons hread hcount hhands, ?_⟩
        rw [List.flatten_cons, ← List.append_assoc]
        exact hstops

theorem readImage_eq_some_iff :
    reader.readImage r = some (result, after) ↔
      ∃ pieces r' buffer',
        reader.Hands r (Octets.fill Source.imageBuffer 0) pieces r' buffer' ∧
        reader.Stops r' buffer' pieces.flatten result after := by
  constructor
  · intro h
    exact exists_of_readAfter h
  · rintro ⟨pieces, r', buffer', hhands, hstops⟩
    rw [readImage, hhands.readAfter_eq, List.nil_append]
    exact hstops.readAfter_eq

/-! ### Counted reads -/

/-- The reader with a count of the reads it has answered. -/
def counting (reader : Reader R ε) : Reader (R × Nat) ε where
  read s buffer := ((reader.read s.1 buffer).1, (reader.read s.1 buffer).2, s.2 + 1)

theorem Hands.counting (h : reader.Hands r buffer pieces r' buffer') (count : Nat) :
    reader.counting.Hands (r, count) buffer pieces (r', count + pieces.length) buffer' := by
  induction h generalizing count with
  | nil r buffer => exact .nil _ _
  | @cons _ _ _ _ _ _ pieces read_eq count_ne rest ih =>
      have hcount : count + (pieces.length + 1) = count + 1 + pieces.length := by omega
      rw [List.length_cons, hcount]
      refine .cons ?_ count_ne (ih (count + 1))
      simp only [Reader.counting, read_eq]

theorem Stops.counting (h : reader.Stops r buffer image result after) (count : Nat) :
    reader.counting.Stops (r, count) buffer image result (after, count + 1) := by
  cases h with
  | atEnd read_eq count_eq =>
      refine .atEnd ?_ count_eq
      simp only [Reader.counting, read_eq]
  | failed read_eq =>
      refine .failed ?_
      simp only [Reader.counting, read_eq]

/-- One read for each piece, and one that stops it: there is none after that. -/
theorem readImage_counting
    (hhands : reader.Hands r (Octets.fill Source.imageBuffer 0) pieces r' buffer')
    (hstops : reader.Stops r' buffer' pieces.flatten result after) :
    reader.counting.readImage (r, 0) = some (result, after, pieces.length + 1) := by
  have hcounted := hhands.counting 0
  rw [Nat.zero_add] at hcounted
  exact readImage_eq_some_iff.2 ⟨pieces, _, buffer', hcounted, hstops.counting pieces.length⟩

end Reader

/-! ## Sources -/

namespace Source

theorem length_le_of_read {n : Nat} {source rest : Source} {bs : Bytes}
    (h : source.read n = (some bs, rest)) : bs.length ≤ n := by
  match source with
  | [] =>
    cases h
    exact Nat.zero_le n
  | none :: more => cases h
  | some chunk :: more =>
    simp only [read] at h
    split at h
    · next hlater =>
      cases h
      exact List.drop_eq_nil_iff.1 hlater
    · cases h
      exact List.length_take_le n chunk

/-- What a read of a source does. -/
def reader : Reader Source Unit where
  read source buffer :=
    match source.read imageBuffer with
    | (none, rest) => (.error (), rest)
    | (some bs, rest) => (.ok (Filled.copy buffer bs), rest)

/-- A result in which a failure is not told apart from others, as that of a reader. -/
def ended (result : Option Bytes × Source) : Except Unit Bytes × Source :=
  (match result.1 with
    | some image => .ok image
    | none => .error (), result.2)

theorem readAfter_reader (pieces : List Bytes) (source : Source) (buffer : Octets imageBuffer) :
    reader.readAfter pieces.reverse.flatten source buffer =
      some (ended (readAfter pieces source)) := by
  fun_induction readAfter pieces source generalizing buffer with
  | case1 pieces source rest hread =>
      rw [Reader.readAfter]
      simp only [reader, hread]
      rfl
  | case2 pieces source rest hread =>
      have hcount : (Filled.copy buffer []).count = 0 := rfl
      rw [Reader.readAfter]
      simp only [reader, hread, if_pos hcount]
      rfl
  | case3 pieces source b bs rest hread ih =>
      have hoctets := Filled.octets_copy buffer (length_le_of_read hread)
      have hcount : ¬(Filled.copy buffer (b :: bs)).count = 0 := by
        rw [← Filled.length_octets, hoctets]
        exact Nat.succ_ne_zero bs.length
      rw [Reader.readAfter]
      simp only [reader, hread, if_neg hcount]
      rw [← ih, hoctets, List.reverse_cons, List.flatten_append, List.flatten_singleton]
      rfl

/-- Reading from a source always ends. -/
theorem readImage_reader (source : Source) :
    reader.readImage source = some (ended source.readImage) :=
  readAfter_reader [] source (Octets.fill imageBuffer 0)

/-! ### Chunks -/

/-- The result of reading on, with octets that were read before. -/
def prepend (bs : Bytes) (result : Option Bytes × Source) : Option Bytes × Source :=
  (result.1.map (bs ++ ·), result.2)

theorem prepend_nil (result : Option Bytes × Source) : prepend [] result = result := by
  rcases result with ⟨image, left⟩
  cases image with
  | none => rfl
  | some image => rfl

theorem prepend_prepend (bs bs' : Bytes) (result : Option Bytes × Source) :
    prepend bs (prepend bs' result) = prepend (bs ++ bs') result := by
  rcases result with ⟨image, left⟩
  cases image with
  | none => rfl
  | some image => simp [prepend]

/-- What is in a source up to its first empty chunk, unless a failure comes before, and what is left
behind that. -/
def untilEmpty : Source → Option Bytes × Source
  | [] => (some [], [])
  | none :: more => (none, more)
  | some [] :: more => (some [], more)
  | some (b :: bs) :: more => prepend (b :: bs) (untilEmpty more)

theorem untilEmpty_cons {chunk : Bytes} (h : chunk ≠ []) (more : Source) :
    untilEmpty (some chunk :: more) = prepend chunk more.untilEmpty := by
  cases chunk with
  | nil => exact absurd rfl h
  | cons b bs => rfl

theorem untilEmpty_of_read_none {n : Nat} {source rest : Source}
    (h : source.read n = (none, rest)) : source.untilEmpty = (none, rest) := by
  match source with
  | [] => cases h
  | none :: more =>
    cases h
    rfl
  | some chunk :: more =>
    simp only [read] at h
    split at h <;> cases h

theorem untilEmpty_of_read_nil {n : Nat} (hn : 0 < n) {source rest : Source}
    (h : source.read n = (some [], rest)) : source.untilEmpty = (some [], rest) := by
  match source with
  | [] =>
    cases h
    rfl
  | none :: more => cases h
  | some chunk :: more =>
    simp only [read] at h
    split at h
    · cases h
      rfl
    -- From a chunk that is longer than the buffer, a read takes at least one octet.
    · next hlater =>
      have htake : chunk.take n = [] := Option.some.inj (congrArg Prod.fst h)
      rcases List.take_eq_nil_iff.1 htake with hzero | hchunk
      · exact absurd hzero (Nat.ne_of_gt hn)
      · rw [hchunk, List.drop_nil] at hlater
        exact absurd rfl hlater

theorem untilEmpty_of_read_cons {n : Nat} {source rest : Source} {b : UInt8} {bs : Bytes}
    (h : source.read n = (some (b :: bs), rest)) :
    source.untilEmpty = prepend (b :: bs) rest.untilEmpty := by
  match source with
  | [] => cases h
  | none :: more => cases h
  | some chunk :: more =>
    simp only [read] at h
    split at h
    · cases h
      rfl
    -- What was read and what is left of the chunk are the chunk.
    · next hlater =>
      simp only [Prod.mk.injEq, Option.some.injEq] at h
      rcases h with ⟨htake, rfl⟩
      have hchunk : chunk ≠ [] := by
        rintro rfl
        rw [List.drop_nil] at hlater
        exact hlater rfl
      rw [untilEmpty_cons hlater, prepend_prepend, ← htake, List.take_append_drop,
        untilEmpty_cons hchunk]

theorem readAfter_eq (pieces : List Bytes) (source : Source) :
    readAfter pieces source = prepend pieces.reverse.flatten source.untilEmpty := by
  fun_induction readAfter pieces source with
  | case1 pieces source rest hread =>
      rw [untilEmpty_of_read_none hread]
      rfl
  | case2 pieces source rest hread =>
      rw [untilEmpty_of_read_nil (by decide) hread, prepend, Option.map_some, List.append_nil]
  | case3 pieces source b bs rest hread ih =>
      rw [ih, untilEmpty_of_read_cons hread, prepend_prepend, List.reverse_cons,
        List.flatten_append, List.flatten_singleton]

/-- An image that is read is all that is in the source up to its first empty chunk, however long the
chunks are. -/
theorem readImage_eq (source : Source) : source.readImage = source.untilEmpty := by
  rw [readImage, readAfter_eq]
  exact prepend_nil _

theorem untilEmpty_append {chunks : List Bytes} (h : ∀ chunk ∈ chunks, chunk ≠ []) (more : Source) :
    untilEmpty (chunks.map some ++ more) = prepend chunks.flatten more.untilEmpty := by
  induction chunks with
  | nil => exact (prepend_nil _).symm
  | cons chunk chunks ih =>
      rcases List.forall_mem_cons.1 h with ⟨hchunk, hchunks⟩
      rw [List.map_cons, List.cons_append, untilEmpty_cons hchunk, ih hchunks, prepend_prepend,
        List.flatten_cons]

end Source

/-- Reading an image from anything ends exactly if its reads come to one that gives nothing or
fails, and then with all octets given before, in order, or with the error.  There is one read for
each piece and one that stops it, whatever else stands in the buffer.  From a source reading always
ends, with the image that its chunks make up to the first empty one, however they are cut; what is
behind is left. -/
theorem reading_loses_nothing :
    (∀ (R ε : Type) (reader : Reader R ε) (r after : R) (result : Except ε Bytes),
      (reader.readImage r = some (result, after) ↔
        ∃ pieces r' buffer',
          reader.Hands r (Octets.fill 4096 0) pieces r' buffer' ∧
          reader.Stops r' buffer' pieces.flatten result after) ∧
      ∀ pieces r' buffer',
        reader.Hands r (Octets.fill 4096 0) pieces r' buffer' →
        reader.Stops r' buffer' pieces.flatten result after →
        (∀ piece ∈ pieces, piece ≠ [] ∧ piece.length ≤ 4096) ∧
        reader.counting.readImage (r, 0) = some (result, after, pieces.length + 1)) ∧
    (∀ source : Source, Source.reader.readImage source = some (Source.ended source.readImage)) ∧
    ∀ chunks : List Bytes, (∀ chunk ∈ chunks, chunk ≠ []) → ∀ more : Source,
      Source.readImage (chunks.map some) = (some chunks.flatten, []) ∧
      Source.readImage (chunks.map some ++ some [] :: more) = (some chunks.flatten, more) ∧
      Source.readImage (chunks.map some ++ none :: more) = (none, more) := by
  refine ⟨?_, Source.readImage_reader, ?_⟩
  · intro R ε reader r after result
    refine ⟨Reader.readImage_eq_some_iff, ?_⟩
    intro pieces r' buffer' hhands hstops
    exact ⟨hhands.length_le, Reader.readImage_counting hhands hstops⟩
  · intro chunks hchunks more
    have hread (tail : Source) : Source.readImage (chunks.map some ++ tail) =
        Source.prepend chunks.flatten tail.untilEmpty := by
      rw [Source.readImage_eq, Source.untilEmpty_append hchunks]
    refine ⟨?_, ?_, hread _⟩
    · have hall := hread []
      simp only [Source.untilEmpty, Source.prepend, Option.map_some, List.append_nil] at hall
      exact hall
    · rw [hread]
      simp only [Source.untilEmpty, Source.prepend, Option.map_some, List.append_nil]

/-- A reader with two answers: the second one is an octet that the first has left in the buffer. -/
def Reader.stale : Reader Nat Unit where
  read r buffer :=
    match r with
    | 0 => (.ok ⟨Octets.fill 4096 7, 3, by decide⟩, 1)
    | 1 => (.ok ⟨buffer, 1, by decide⟩, 2)
    | _ => (.ok ⟨Octets.fill 4096 9, 0, by decide⟩, r + 1)

/-- Two answers take three reads; and a chunk that is longer than the buffer comes across whole. -/
theorem reading_loses_nothing_samples :
    Reader.stale.counting.readImage (0, 0) = some (.ok [7, 7, 7, 7], 3, 3) ∧
    Source.readImage
        [some (List.replicate 5000 0x5a), some [1], some [], some [2]] =
      (some (List.replicate 5000 0x5a ++ [1]), [some [2]]) := by
  rcases reading_loses_nothing with ⟨hreaders, -, hsources⟩
  refine ⟨?_, ?_⟩
  · have hfirst : Reader.stale.read 0 (Octets.fill 4096 0) =
        (.ok ⟨Octets.fill 4096 7, 3, by decide⟩, 1) := rfl
    have hsecond : Reader.stale.read 1 (Octets.fill 4096 7) =
        (.ok ⟨Octets.fill 4096 7, 1, by decide⟩, 2) := rfl
    have hhands : Reader.stale.Hands 0 (Octets.fill 4096 0) [[7, 7, 7], [7]] 2
        (Octets.fill 4096 7) :=
      .cons hfirst (Nat.succ_ne_zero 2) (.cons hsecond (Nat.succ_ne_zero 0) (.nil 2 _))
    exact ((hreaders Nat Unit Reader.stale 0 3 (.ok [7, 7, 7, 7])).2 _ 2 _ hhands
      (.atEnd rfl rfl)).2
  · have hchunks : ∀ chunk ∈ [List.replicate 5000 (0x5a : UInt8), [1]], chunk ≠ [] := by
      have hlong : List.replicate 5000 (0x5a : UInt8) ≠ [] :=
        mt (List.replicate_eq_nil_iff _).1 (Nat.succ_ne_zero 4999)
      exact List.forall_mem_cons.2 ⟨hlong, List.forall_mem_singleton.2 (List.cons_ne_nil 1 [])⟩
    exact (hsources _ hchunks [some [2]]).2.1

end SecureBoot
