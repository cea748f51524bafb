import SecureBoot.Bytes

/-!
# Sinks

A `Sink` takes octets write by write.  It may take only a few at once, and it may fail when it is
full. `Sink.writeAll` repeats the write with what was not taken, until all is taken or a write
fails; `Sink.Result` says how that ends.
-/

namespace SecureBoot

structure Sink where
  /-- The most octets that one write takes; none for no such bound. -/
  step : Option Nat
  /-- The number of octets after which the next write fails; none for no such bound. -/
  limit : Option Nat
  /-- What was taken, the last write first. -/
  writes : List Bytes
  count : Nat
  deriving DecidableEq, Repr

namespace Sink

/-- A sink that has not taken anything. -/
def empty (step limit : Option Nat) : Sink :=
  ⟨step, limit, [], 0⟩

def accepted (sink : Sink) : Bytes :=
  sink.writes.reverse.flatten

inductive Result where
  | ok
  | failed
  /-- A write took nothing. -/
  | stalled
  deriving DecidableEq, Repr

/-- Whether the next write fails. -/
def isFull (sink : Sink) : Bool :=
  sink.limit.any fun limit => decide (limit ≤ sink.count)

/-- The most octets that the next write takes. -/
def room (sink : Sink) : Option Nat :=
  match sink.step, sink.limit with
  | none, none => none
  | some step, none => some step
  | none, some limit => some (limit - sink.count)
  | some step, some limit => some (min step (limit - sink.count))

/-- The sink after a write that took these octets. -/
def accept (sink : Sink) (bs : Bytes) : Sink :=
  { sink with writes := bs :: sink.writes, count := sink.count + bs.length }

/-- Write until all octets are taken. -/
def writeAll (sink : Sink) (data : Bytes) : Sink × Result :=
  match data with
  | [] => (sink, .ok)
  | b :: bs =>
    if sink.isFull then (sink, .failed)
    else
      match sink.room with
      | none => (sink.accept (b :: bs), .ok)
      -- Repeating a write that takes nothing would not end.
      | some 0 => (sink, .stalled)
      | some (k + 1) => writeAll (sink.accept (b :: bs.take k)) (bs.drop k)
termination_by data.length
decreasing_by
  simp only [List.length_drop, List.length_cons]
  omega

/-- Write several strings, one after the other, as long as all goes well. -/
def writeEach (sink : Sink) : List Bytes → Sink × Result
  | [] => (sink, .ok)
  | data :: more =>
    match sink.writeAll data with
    | (sink, .ok) => sink.writeEach more
    | stopped => stopped

end Sink

end SecureBoot
