import Overseer.Collection.Basic

/-!
# Cleaners

A `Cleaner` cleans a collection of its idle servers, once in each period, the first time a period
after it began. Cleaning takes time when servers are slow to stop. A cleaner that is late for its
next turn by more than the clock's own tolerance takes that turn at once, and counts its next period
from then on. A turn that panics is the last one; and when the collection is cleaned up, a cleaner
finishes its turn and ends.

Cleaners share their collection with others, so each goes on only as far as it can at the moment
(`Cleaner.goOn`).
-/

namespace Overseer

/-- What a cleaner is at. -/
inductive Cleaner.Stage (η σ : Type) where
  /-- It has not begun. -/
  | new
  /-- Its next turn is due at some time. -/
  | resting (due : Instant)
  /-- It has a turn, and its next one is due at some time. -/
  | cleaning (due : Instant) (turn : LongDeed η σ (Except Panic (List String)))
  /-- It is at its end, and says whether it got there without a panic. -/
  | ended (normally : Bool)

/-- Cleans a collection in each period. -/
structure Cleaner (η σ : Type) where
  period : Duration
  stage : Cleaner.Stage η σ := .new

namespace Cleaner

variable {η σ : Type} (H : Host η)

/-- How late a turn may be before the next one is put off. -/
def tolerance : Duration := .ofMillis 5

/-- A new cleaner with some interval, at least a millisecond. -/
def ofInterval (interval : Duration) : Cleaner η σ := { period := interval.max (.ofMillis 1) }

/-- When the next turn is due, if one that was due is taken now. -/
def dueAfter (c : Cleaner η σ) (due now : Instant) : Instant :=
  (if now ≤ due.later tolerance then due else now).later c.period

/-- Goes on with a turn. -/
def clean (c : Cleaner η σ) (due : Instant) (turn : LongDeed η σ (Except Panic (List String))) :
    Deed η σ (Cleaner η σ) := fun s =>
  match turn.proceed (Site.grant H) s with
  | (.done (.ok _), s) => ({ c with stage := .resting due }, s)
  | (.done (.error _), s) => ({ c with stage := .ended false }, s)
  | (turn, s) => ({ c with stage := .cleaning due turn }, s)

/-- Ends if the collection was cleaned up, and takes a turn if one is due. -/
def rest (c : Cleaner η σ) (due : Instant) : Deed η σ (Cleaner η σ) := do
  let s ← get
  let now := H.now s.host
  if s.collection.cancelled then pure { c with stage := .ended true }
  else if due ≤ now then c.clean H (c.dueAfter due now) (Collection.cleanIdle H)
  else pure { c with stage := .resting due }

/-- Goes on as far as it can at the moment. -/
def goOn (c : Cleaner η σ) : Deed η σ (Cleaner η σ) := do
  match c.stage with
  | .new => c.rest H ((H.now (← get).host).later c.period)
  | .resting due => c.rest H due
  | .cleaning due turn => c.clean H due turn
  | .ended _ => pure c

/-- When it can go on, as far as that can be told. -/
def wakesAt? (c : Cleaner η σ) (s : Site η σ) : Option Instant :=
  match c.stage with
  | .new => some (H.now s.host)
  | .resting due => some (if s.collection.cancelled then H.now s.host else due)
  | .cleaning _ turn => turn.awaited?.bind (s.grantedAt? H)
  | .ended _ => none

/-- Whether it came to its end without a panic, once it is there. -/
def ended? (c : Cleaner η σ) : Option Bool :=
  match c.stage with
  | .ended normally => some normally
  | _ => none

end Cleaner

end Overseer
