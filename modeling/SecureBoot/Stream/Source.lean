import SecureBoot.Bytes

/-!
# Sources

A `Source` answers reads, one after the other, from a list of chunks; `Source.read` is one read
into a buffer of a given length.  `Source.readImage` reads until a read gives nothing, and so
gives the concatenation of all chunks before the first empty one.
-/

namespace SecureBoot

/-- What a source has left: the chunks that it will hand out, where `none` stands for a failure. -/
abbrev Source := List (Option Bytes)

namespace Source

/-- One read: none if it fails, the octets otherwise, and what the source has left.  A chunk longer
than the buffer is handed out in parts, and with no chunk left a read gives nothing. -/
def read (buffer : Nat) : Source → Option Bytes × Source
  | [] => (some [], [])
  | none :: more => (none, more)
  | some chunk :: more =>
    match chunk.drop buffer with
    | [] => (some chunk, more)
    | later => (some (chunk.take buffer), some later :: more)

/-- The number of octets a source has left, and of its chunks. -/
def size : Source → Nat
  | [] => 0
  | chunk :: more => (chunk.getD []).length + 1 + size more

theorem size_read {buffer : Nat} (hbuffer : 0 < buffer) {source rest : Source} {b : UInt8}
    {bs : Bytes} (h : source.read buffer = (some (b :: bs), rest)) : rest.size < source.size := by
  match source with
  | [] => simp [read] at h
  | none :: more => simp [read] at h
  | some chunk :: more =>
    simp only [read] at h
    split at h
    · simp only [Prod.mk.injEq] at h
      simp [size, ← h.2]
    · next hlater =>
      simp only [Prod.mk.injEq] at h
      obtain ⟨-, rfl⟩ := h
      have hlength := congrArg List.length (List.take_append_drop buffer chunk)
      have hpos : 0 < (chunk.drop buffer).length := List.length_pos_iff.2 hlater
      simp only [List.length_append, List.length_take, List.length_drop] at hlength hpos
      simp only [size, Option.getD_some, List.length_drop]
      omega

/-- The length of the buffer that images are read with. -/
abbrev imageBuffer : Nat := 4096

/-- Read on, after the given pieces, the latest first. -/
def readAfter (pieces : List Bytes) (source : Source) : Option Bytes × Source :=
  match _h : source.read imageBuffer with
  | (none, rest) => (none, rest)
  | (some [], rest) => (some pieces.reverse.flatten, rest)
  | (some (b :: bs), rest) => readAfter ((b :: bs) :: pieces) rest
termination_by source.size
decreasing_by exact size_read (by decide) _h

/-- Read a whole image: none if a read fails, and what the source has left. -/
def readImage (source : Source) : Option Bytes × Source :=
  readAfter [] source

end Source

end SecureBoot
