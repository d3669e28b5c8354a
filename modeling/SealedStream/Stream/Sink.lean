import SealedStream.Action
import SealedStream.Bytes
import SealedStream.IoError

/-!
# Where a stream is written to

A sink keeps what it has taken. A write may be taken in part, refused, or raise
an error; `writeAll` goes on over partial writes and interruptions.
-/

namespace SealedStream

/-- What is in store for one write. -/
inductive WriteEvent where
  | regular
  /-- Not more than so many bytes are taken. -/
  | limited (most : Nat)
  | failing (e : IoError)
  deriving DecidableEq, Repr

structure Sink where
  /-- All bytes taken so far. -/
  content : Bytes := []
  /-- What becomes of the coming writes; those after them are regular. -/
  coming : List WriteEvent := []
  /-- The most bytes that a write takes. -/
  perCall : Option Nat := none
  /-- The most bytes in all. -/
  capacity : Option Nat := none
  /-- What a full sink answers, if it does not just take nothing. -/
  whenFull : Option IoError := none
  /-- The errors of the coming flushes. -/
  flushFaults : List (Option IoError) := []
  writeCalls : Nat := 0
  flushCalls : Nat := 0

namespace Sink

/-- How many of `length` bytes there is room for. -/
def room (s : Sink) (length : Nat) : Nat :=
  match s.capacity with
  | some capacity => min length (capacity - s.content.length)
  | none => length

/-- How many of `length` bytes a regular write takes. -/
def regularTake (s : Sink) (length : Nat) : Except IoError Nat :=
  match s.whenFull with
  | some e =>
    if length ≠ 0 ∧ s.room length = 0 then .error e
    else .ok (min (s.perCall.getD length) (s.room length))
  | none => .ok (min (s.perCall.getD length) (s.room length))

/-- How many of `length` bytes the next write takes. -/
def nextTake (s : Sink) (length : Nat) : Except IoError Nat :=
  match s.coming.head? with
  | some (.failing e) => .error e
  | some (.limited most) => (s.regularTake length).map (min most)
  | _ => s.regularTake length

/-- One write, which tells how many bytes were taken. -/
def write (bytes : Bytes) : Action Sink IoError Nat := fun s =>
  let after := { s with coming := s.coming.tail, writeCalls := s.writeCalls + 1 }
  match s.nextTake bytes.length with
  | .error e => (.error e, after)
  | .ok taken => (.ok taken, { after with content := s.content ++ bytes.take taken })

theorem coming_write (bytes : Bytes) (s : Sink) :
    (write bytes s).2.coming = s.coming.tail := by
  unfold write
  cases s.nextTake bytes.length <;> rfl

def flush : Action Sink IoError Unit := fun s =>
  let after := { s with flushFaults := s.flushFaults.tail, flushCalls := s.flushCalls + 1 }
  match s.flushFaults.head? with
  | some (some e) => (.error e, after)
  | _ => (.ok (), after)

/-- Writes until nothing is left. A sink that is interrupted for good is left with its error. -/
def writeAll (bytes : Bytes) (s : Sink) : Except IoError Unit × Sink :=
  if bytes.isEmpty then (.ok (), s)
  else
    match _h : write bytes s with
    | (.ok taken, after) =>
      if taken = 0 then (.error .stuck, after) else writeAll (bytes.drop taken) after
    | (.error e, after) =>
      if e.isInterrupted ∧ s.coming ≠ [] then writeAll bytes after else (.error e, after)
termination_by bytes.length + s.coming.length
decreasing_by
  · have hc := coming_write bytes s
    rw [_h] at hc
    simp only at hc
    have hb : bytes ≠ [] := by simp_all
    have := List.length_pos_iff.mpr hb
    simp [hc]
    omega
  · have hc := coming_write bytes s
    rw [_h] at hc
    simp only at hc
    rename_i hs
    have := List.length_pos_iff.mpr hs.2
    simp [hc]
    omega

end Sink

end SealedStream
