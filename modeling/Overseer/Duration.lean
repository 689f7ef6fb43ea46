import Overseer.Panic

/-!
# Spans and points of time

A `Duration` has whole seconds below 2^64 and a nanosecond part, an `Instant` lies less than 2^63
seconds after the clock's origin. Sums and multiples that leave this range have no value: the
operations that need one panic there (`Duration.plus`, `Duration.times`, `Instant.plus`).
-/

namespace Overseer

/-- A span of time, in nanoseconds. -/
structure Duration where
  nanos : Nat
  bounded : nanos < (1 <<< 64) * 1_000_000_000
  deriving DecidableEq

namespace Duration

/-- A span of so many nanoseconds, if it is no longer than the longest one. -/
def ofNanos? (n : Nat) : Option Duration :=
  if h : n < (1 <<< 64) * 1_000_000_000 then some ⟨n, h⟩ else none

/-- The longest span. -/
def longest : Duration := ⟨(1 <<< 64) * 1_000_000_000 - 1, by decide⟩

/-- A span of so many nanoseconds, cut to the longest one. -/
def ofNanos (n : Nat) : Duration := (ofNanos? n).getD longest

/-- A span of so many milliseconds, cut to the longest one. -/
def ofMillis (n : Nat) : Duration := ofNanos (n * 1_000_000)

/-- A span of so many seconds, cut to the longest one. -/
def ofSecs (n : Nat) : Duration := ofNanos (n * 1_000_000_000)

/-- The empty span. -/
def zero : Duration := ⟨0, by decide⟩

instance : Inhabited Duration := ⟨zero⟩

instance : LE Duration := ⟨fun a b => a.nanos ≤ b.nanos⟩

instance (a b : Duration) : Decidable (a ≤ b) := inferInstanceAs (Decidable (a.nanos ≤ b.nanos))

/-- The whole seconds of a span. -/
def secs (d : Duration) : Nat := d.nanos / 1_000_000_000

/-- What a span has beyond its whole seconds. -/
def subsecNanos (d : Duration) : Nat := d.nanos % 1_000_000_000

/-- The whole milliseconds of a span. -/
def millis (d : Duration) : Nat := d.nanos / 1_000_000

/-- The longer of two spans. -/
def max (a b : Duration) : Duration := if a ≤ b then b else a

/-- The sum of two spans. -/
def add? (a b : Duration) : Option Duration := ofNanos? (a.nanos + b.nanos)

/-- A multiple of a span. -/
def mul? (n : Nat) (d : Duration) : Option Duration := ofNanos? (n * d.nanos)

/-- The sum of two spans, or a panic. -/
def plus (a b : Duration) : Except Panic Duration :=
  match add? a b with
  | some d => .ok d
  | none => .error (.text "overflow when adding durations")

/-- A multiple of a span, or a panic. -/
def times (n : Nat) (d : Duration) : Except Panic Duration :=
  match mul? n d with
  | some d => .ok d
  | none => .error (.text "overflow when multiplying duration by scalar")

end Duration

/-- A point of time, in nanoseconds after the clock's origin. -/
structure Instant where
  nanos : Nat
  bounded : nanos < (1 <<< 63) * 1_000_000_000
  deriving DecidableEq

namespace Instant

/-- The point so many nanoseconds after the origin, if the clock can show it. -/
def ofNanos? (n : Nat) : Option Instant :=
  if h : n < (1 <<< 63) * 1_000_000_000 then some ⟨n, h⟩ else none

/-- The last point that the clock can show. -/
def last : Instant := ⟨(1 <<< 63) * 1_000_000_000 - 1, by decide⟩

/-- The origin of the clock. -/
def origin : Instant := ⟨0, by decide⟩

instance : Inhabited Instant := ⟨origin⟩

instance : LE Instant := ⟨fun a b => a.nanos ≤ b.nanos⟩

instance (a b : Instant) : Decidable (a ≤ b) := inferInstanceAs (Decidable (a.nanos ≤ b.nanos))

/-- The earlier of two points. -/
instance : Min Instant := ⟨fun a b => if a ≤ b then a else b⟩

/-- The point a span after another. -/
def add? (t : Instant) (d : Duration) : Option Instant := ofNanos? (t.nanos + d.nanos)

/-- The point a span after another, or a panic. -/
def plus (t : Instant) (d : Duration) : Except Panic Instant :=
  match add? t d with
  | some t => .ok t
  | none => .error (.text "overflow when adding duration to instant")

/-- Where the clock stands after a span has passed. A clock that has reached its last point stays
there. -/
def later (t : Instant) (d : Duration) : Instant := (add? t d).getD last

/-- The span from an earlier point to this one, empty if that point is not earlier. -/
def since (t earlier : Instant) : Duration := .ofNanos (t.nanos - earlier.nanos)

end Instant

end Overseer
