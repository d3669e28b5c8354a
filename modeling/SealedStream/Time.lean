/-!
# Points in time and spans of time

Both are counted in nanoseconds. A point is counted from the epoch and its
whole seconds fit a signed 64-bit word; moving it past that range has no result.
-/

namespace SealedStream

structure Duration where
  nanoseconds : Nat
  deriving DecidableEq, Repr

namespace Duration

def nanosecondsPerSecond : Nat := 1000000000

def ofSeconds (seconds : Nat) : Duration := ⟨seconds * nanosecondsPerSecond⟩

def of (seconds nanoseconds : Nat) : Duration :=
  ⟨seconds * nanosecondsPerSecond + nanoseconds⟩

/-- The whole seconds and the nanoseconds beyond them. -/
def parts (d : Duration) : Nat × Nat :=
  (d.nanoseconds / nanosecondsPerSecond, d.nanoseconds % nanosecondsPerSecond)

end Duration

structure Time where
  /-- Nanoseconds since the epoch. -/
  nanoseconds : Int
  deriving DecidableEq, Repr

namespace Time

/-- Nanoseconds always count forward, also before the epoch. -/
def of (seconds : Int) (nanoseconds : Nat) : Time :=
  ⟨seconds * Duration.nanosecondsPerSecond + nanoseconds⟩

/-- The last whole second at or before the point. -/
def seconds (t : Time) : Int := t.nanoseconds.fdiv Duration.nanosecondsPerSecond

def parts (t : Time) : Int × Nat :=
  (t.seconds, (t.nanoseconds.fmod Duration.nanosecondsPerSecond).toNat)

instance : LE Time := ⟨fun a b => a.nanoseconds ≤ b.nanoseconds⟩
instance : LT Time := ⟨fun a b => a.nanoseconds < b.nanoseconds⟩
instance (a b : Time) : Decidable (a ≤ b) := inferInstanceAs (Decidable (a.nanoseconds ≤ b.nanoseconds))
instance (a b : Time) : Decidable (a < b) := inferInstanceAs (Decidable (a.nanoseconds < b.nanoseconds))

/-- The clock can show the point: its seconds fit a signed 64-bit word. -/
def InRange (t : Time) : Prop :=
  Int64.minValue.toInt ≤ t.seconds ∧ t.seconds ≤ Int64.maxValue.toInt

instance (t : Time) : Decidable t.InRange := inferInstanceAs (Decidable (_ ∧ _))

/-- The point a span later, if the clock can show it. -/
def add? (t : Time) (d : Duration) : Option Time :=
  let later : Time := ⟨t.nanoseconds + d.nanoseconds⟩
  if later.InRange then some later else none

def epoch : Time := ⟨0⟩

/-- Whole seconds since the epoch, none for a point before it. -/
def epochSeconds (t : Time) : Nat := t.seconds.toNat

/-- The point that many seconds after the epoch, if the clock can show it. -/
def ofEpochSeconds? (seconds : Nat) : Option Time := epoch.add? (.ofSeconds seconds)

end Time

end SealedStream
