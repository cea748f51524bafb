import SecureBoot.Stream.Sink

/-!
# Writer — a string written to anything that takes it piecemeal

A `Writer` is asked to take octets and answers how many of them it has taken, or that it fails.
Nothing else is known about it: how many it takes of a write is up to it.  `Sink.writer` is what a
sink does.

`Writer.Bounded` says when a writer is full.  Whatever such a writer takes at once, strings that are
written to it one after the other come across up to where it is full, octet by octet and in order,
and the writing goes well exactly if all of them fit (`Writer.Bounded.writeEach`).
-/

namespace SecureBoot

/-- What a write does: it takes so many of the octets that it is given, from the front, or fails. -/
structure Writer (W : Type) where
  write : W → Bytes → Option Nat × W

namespace Writer

variable {W : Type}

/-! ## Writing -/

/-- Write until all octets are taken. -/
def writeAll (writer : Writer W) (w : W) (data : Bytes) : W × Sink.Result :=
  match data with
  | [] => (w, .ok)
  | b :: bs =>
    match writer.write w (b :: bs) with
    | (none, after) => (after, .failed)
    | (some 0, after) => (after, .stalled)
    | (some (k + 1), after) => writer.writeAll after (bs.drop k)
termination_by data.length
decreasing_by
  simp only [List.length_drop, List.length_cons]
  omega

/-- Write several strings, one after the other, as long as all goes well. -/
def writeEach (writer : Writer W) (w : W) : List Bytes → W × Sink.Result
  | [] => (w, .ok)
  | data :: more =>
    match writer.writeAll w data with
    | (after, .ok) => writer.writeEach after more
    | stopped => stopped

/-! ## Limits -/

/-- No more octets than the limit. -/
def Fits (limit : Option Nat) (bs : Bytes) : Prop :=
  ∀ bound ∈ limit, bs.length ≤ bound

/-- As many octets as the limit. -/
def Full (limit : Option Nat) (bs : Bytes) : Prop :=
  ∃ bound ∈ limit, bound ≤ bs.length

/-- The octets up to the limit. -/
def upTo (limit : Option Nat) (bs : Bytes) : Bytes :=
  match limit with
  | none => bs
  | some bound => bs.take bound

/-- How writing ends: with all octets in, or with the writer full. -/
inductive Outcome (limit : Option Nat) (bs accepted : Bytes) : Sink.Result → Prop where
  | all (fits : Fits limit bs) (eq : accepted = bs) : Outcome limit bs accepted .ok
  | full {bound : Nat} (limited : limit = some bound) (exceeds : bound < bs.length)
      (eq : accepted = bs.take bound) : Outcome limit bs accepted .failed

/-- Writing has brought the octets across up to the limit, and has gone well if these are all. -/
structure WrittenUpTo (limit : Option Nat) (bs accepted : Bytes) (result : Sink.Result) : Prop where
  accepted_eq : accepted = upTo limit bs
  ok_iff : result = .ok ↔ Fits limit bs
  failed_iff : result = .failed ↔ ¬Fits limit bs

variable {limit : Option Nat} {bs accepted : Bytes} {result : Sink.Result}

theorem Outcome.writtenUpTo (h : Outcome limit bs accepted result) :
    WrittenUpTo limit bs accepted result := by
  cases h with
  | all fits eq =>
      refine ⟨?_, iff_of_true rfl fits, iff_of_false nofun (not_not_intro fits)⟩
      cases limit with
      | none => exact eq
      | some bound => rw [eq, upTo, List.take_of_length_le (fits bound rfl)]
  | @full bound limited exceeds eq =>
      have hfits : ¬Fits limit bs := fun h => Nat.not_le_of_lt exceeds (h bound limited)
      refine ⟨?_, iff_of_false nofun hfits, iff_of_true rfl hfits⟩
      rw [limited]
      exact eq

/-- What is written once the writer is full is lost. -/
theorem Outcome.append_of_full {bound : Nat} (limited : limit = some bound)
    (exceeds : bound < bs.length) (eq : accepted = bs.take bound) (more : Bytes) :
    Outcome limit (bs ++ more) accepted .failed := by
  refine .full limited (Nat.lt_of_lt_of_le exceeds ?_) ?_
  · rw [List.length_append]
    exact Nat.le_add_right _ _
  · rw [eq, List.take_append_of_le_length (Nat.le_of_lt exceeds)]

/-! ## Writers with a limit -/

/-- Until a writer is full it takes at least one octet of each write, and none that do not fit; then
it fails.  `Holds w bs` says that `bs` is what `w` has taken. -/
structure Bounded (writer : Writer W) (limit : Option Nat) (Holds : W → Bytes → Prop) : Prop where
  takes : ∀ {w taken} (b bs), Holds w taken → ¬Full limit taken →
    ∃ k after, writer.write w (b :: bs) = (some (k + 1), after) ∧
      Holds after (taken ++ b :: bs.take k) ∧ Fits limit (taken ++ b :: bs.take k)
  fails : ∀ {w taken} (b bs), Holds w taken → Full limit taken →
    ∃ after, writer.write w (b :: bs) = (none, after) ∧ Holds after taken

namespace Bounded

variable {writer : Writer W} {Holds : W → Bytes → Prop} {w : W} {taken : Bytes}

theorem writeAll (h : writer.Bounded limit Holds) (hholds : Holds w taken)
    (hfits : Fits limit taken) (data : Bytes) :
    ∃ after result accepted, writer.writeAll w data = (after, result) ∧ Holds after accepted ∧
      Outcome limit (taken ++ data) accepted result := by
  fun_induction Writer.writeAll writer w data generalizing taken with
  | case1 w =>
      refine ⟨w, .ok, taken, rfl, hholds, ?_⟩
      rw [List.append_nil]
      exact .all hfits rfl
  | case2 w b bs after hwrite =>
      -- Only a full writer fails, and it is full to the brim.
      by_cases hfull : Full limit taken
      · rcases h.fails b bs hholds hfull with ⟨other, hother, hafter⟩
        cases hwrite.symm.trans hother
        refine ⟨after, .failed, taken, rfl, hafter, ?_⟩
        rcases hfull with ⟨bound, limited, hle⟩
        have hlength : taken.length = bound := Nat.le_antisymm (hfits bound limited) hle
        refine .full limited ?_ ?_
        · rw [List.length_append, hlength]
          exact Nat.lt_add_of_pos_right (Nat.zero_lt_succ _)
        · rw [← hlength, List.take_left]
      · rcases h.takes b bs hholds hfull with ⟨k, other, hother, -⟩
        cases hwrite.symm.trans hother
  | case3 w b bs after hwrite =>
      by_cases hfull : Full limit taken
      · rcases h.fails b bs hholds hfull with ⟨other, hother, -⟩
        cases hwrite.symm.trans hother
      · rcases h.takes b bs hholds hfull with ⟨k, other, hother, -⟩
        cases hwrite.symm.trans hother
  | case4 w b bs k after hwrite ih =>
      by_cases hfull : Full limit taken
      · rcases h.fails b bs hholds hfull with ⟨other, hother, -⟩
        cases hwrite.symm.trans hother
      · rcases h.takes b bs hholds hfull with ⟨k', other, hother, hafter, hfits'⟩
        cases hwrite.symm.trans hother
        have hrest : taken ++ b :: bs = taken ++ b :: bs.take k ++ bs.drop k := by
          rw [List.append_assoc, List.cons_append, List.take_append_drop]
        rw [hrest]
        exact ih hafter hfits'

theorem writeEach (h : writer.Bounded limit Holds) (hholds : Holds w taken)
    (hfits : Fits limit taken) (pieces : List Bytes) :
    ∃ after result accepted, writer.writeEach w pieces = (after, result) ∧ Holds after accepted ∧
      Outcome limit (taken ++ pieces.flatten) accepted result := by
  induction pieces generalizing w taken with
  | nil =>
      refine ⟨w, .ok, taken, rfl, hholds, ?_⟩
      rw [List.flatten_nil, List.append_nil]
      exact .all hfits rfl
  | cons data pieces ih =>
      rcases h.writeAll hholds hfits data with ⟨after, result, accepted, hwrite, hafter, houtcome⟩
      rw [List.flatten_cons, ← List.append_assoc, Writer.writeEach, hwrite]
      cases houtcome with
      | all fits eq =>
          rw [eq] at hafter
          exact ih hafter fits
      | full limited exceeds eq =>
          exact ⟨after, .failed, accepted, rfl, hafter, .append_of_full limited exceeds eq _⟩

end Bounded

end Writer

/-! ## Sinks -/

namespace Sink

/-- What a write to a sink does. -/
def writer : Writer Sink where
  write sink data :=
    if sink.isFull then (none, sink)
    else
      match sink.room with
      | none => (some data.length, sink.accept data)
      | some 0 => (some 0, sink)
      | some (k + 1) => (some (data.take (k + 1)).length, sink.accept (data.take (k + 1)))

theorem writeAll_eq (sink : Sink) (data : Bytes) :
    sink.writeAll data = writer.writeAll sink data := by
  fun_induction Sink.writeAll sink data with
  | case1 sink => rw [Writer.writeAll]
  | case2 sink b bs hfull =>
      have hwrite : writer.write sink (b :: bs) = (none, sink) := if_pos hfull
      rw [Writer.writeAll, hwrite]
  | case3 sink b bs hfull hroom =>
      have hwrite : writer.write sink (b :: bs) =
          (some (bs.length + 1), sink.accept (b :: bs)) := by
        simp only [writer, if_neg hfull, hroom, List.length_cons]
      simp only [Writer.writeAll, hwrite, List.drop_length]
  | case4 sink b bs hfull hroom =>
      have hwrite : writer.write sink (b :: bs) = (some 0, sink) := by
        simp only [writer, if_neg hfull, hroom]
      rw [Writer.writeAll, hwrite]
  | case5 sink b bs hfull k hroom ih =>
      have hwrite : writer.write sink (b :: bs) =
          (some ((bs.take k).length + 1), sink.accept (b :: bs.take k)) := by
        simp only [writer, if_neg hfull, hroom, List.take_succ_cons, List.length_cons]
      -- What was not taken is the same, whether or not there was as much as the sink would take.
      have hrest : bs.drop (bs.take k).length = bs.drop k := by
        rw [List.length_take, ← List.drop_eq_drop_min]
      rw [Writer.writeAll, hwrite, ih]
      simp only [hrest]

theorem writeEach_eq (sink : Sink) (pieces : List Bytes) :
    sink.writeEach pieces = writer.writeEach sink pieces := by
  induction pieces generalizing sink with
  | nil => rfl
  | cons data pieces ih =>
      rw [writeEach, Writer.writeEach, writeAll_eq]
      rcases writer.writeAll sink data with ⟨after, result⟩
      cases result with
      | ok => exact ih after
      | failed => rfl
      | stalled => rfl

/-- A sink that takes so many octets at once and is full after so many, and has taken these. -/
structure Holding (step limit : Option Nat) (sink : Sink) (taken : Bytes) : Prop where
  step_eq : sink.step = step
  limit_eq : sink.limit = limit
  count_eq : sink.count = taken.length
  accepted_eq : sink.accepted = taken

theorem holding_empty (step limit : Option Nat) : Holding step limit (empty step limit) [] :=
  ⟨rfl, rfl, rfl, rfl⟩

variable {step limit : Option Nat} {sink : Sink} {taken : Bytes}

theorem Holding.accept (h : Holding step limit sink taken) (bs : Bytes) :
    Holding step limit (sink.accept bs) (taken ++ bs) := by
  refine ⟨h.step_eq, h.limit_eq, ?_, ?_⟩
  · rw [List.length_append, ← h.count_eq]
    rfl
  · rw [← h.accepted_eq, accepted, Sink.accept, List.reverse_cons, List.flatten_append,
      List.flatten_singleton, accepted]

theorem Holding.isFull_iff (h : Holding step limit sink taken) :
    sink.isFull = true ↔ Writer.Full limit taken := by
  rw [isFull, h.limit_eq, h.count_eq, Option.any_eq_true]
  simp only [decide_eq_true_eq, Writer.Full, Option.mem_def]

/-- A sink that is not full has room for an octet, and for no more than fit. -/
theorem Holding.room_cases (h : Holding step limit sink taken) (hstep : step ≠ some 0)
    (hfull : ¬Writer.Full limit taken) :
    (limit = none ∧ sink.room = none) ∨
      ∃ k, sink.room = some (k + 1) ∧ ∀ bound ∈ limit, taken.length + (k + 1) ≤ bound := by
  rw [room, h.step_eq, h.limit_eq, h.count_eq]
  have hpos (size : Nat) (hsize : step = some size) : 0 < size :=
    Nat.pos_of_ne_zero fun hzero => hstep (hzero ▸ hsize)
  have hleft (bound : Nat) (hbound : limit = some bound) : taken.length < bound :=
    Nat.lt_of_not_le fun hle => hfull ⟨bound, hbound, hle⟩
  -- Whichever bounds there are, the least of them is what the sink has room for.
  cases limit with
  | none =>
      cases step with
      | none => exact .inl ⟨rfl, rfl⟩
      | some size =>
          have hsize := hpos size rfl
          exact .inr ⟨size - 1, congrArg some (by omega), nofun⟩
  | some bound =>
      have hbound := hleft bound rfl
      cases step with
      | none =>
          refine .inr ⟨bound - taken.length - 1, congrArg some (by omega), ?_⟩
          rintro _ ⟨⟩
          omega
      | some size =>
          have hsize := hpos size rfl
          refine .inr ⟨min size (bound - taken.length) - 1, congrArg some (by omega), ?_⟩
          rintro _ ⟨⟩
          omega

theorem Holding.exists_write (h : Holding step limit sink taken) (hstep : step ≠ some 0)
    (hfull : ¬Writer.Full limit taken) (b : UInt8) (bs : Bytes) :
    ∃ k after, writer.write sink (b :: bs) = (some (k + 1), after) ∧
      Holding step limit after (taken ++ b :: bs.take k) ∧
      Writer.Fits limit (taken ++ b :: bs.take k) := by
  have hnot : ¬sink.isFull = true := mt h.isFull_iff.1 hfull
  rcases h.room_cases hstep hfull with ⟨hlimit, hroom⟩ | ⟨k, hroom, hfits⟩
  · refine ⟨bs.length, sink.accept (b :: bs), ?_, ?_, ?_⟩
    · simp only [writer, if_neg hnot, hroom, List.length_cons]
    · rw [List.take_length]
      exact h.accept _
    · intro bound hbound
      rw [hlimit] at hbound
      cases hbound
  · have htake : bs.take (bs.take k).length = bs.take k := by
      rw [List.length_take, ← List.take_eq_take_min]
    refine ⟨(bs.take k).length, sink.accept (b :: bs.take k), ?_, ?_, ?_⟩
    · simp only [writer, if_neg hnot, hroom, List.take_succ_cons, List.length_cons]
    · rw [htake]
      exact h.accept _
    · intro bound hbound
      have hle := hfits bound hbound
      have hshort : (bs.take k).length ≤ k := List.length_take_le k bs
      rw [htake, List.length_append, List.length_cons]
      omega

/-- A sink is a writer with a limit, unless it never takes anything. -/
theorem bounded_writer (hstep : step ≠ some 0) :
    writer.Bounded limit (Holding step limit) where
  takes := by
    intro sink taken b bs h hfull
    exact h.exists_write hstep hfull b bs
  fails := by
    intro sink taken b bs h hfull
    exact ⟨sink, if_pos (h.isFull_iff.2 hfull), h⟩

end Sink

end SecureBoot
