/-!
# Tiers of stopping a child

A child is stopped in up to three steps: its channel is closed, then it is sent the termination
signal, then it is killed. The tier is the step that ended it.
-/

namespace Overseer

/-- What ended a child. -/
inductive StopTier where
  /-- It exited once its channel was closed. -/
  | closed
  /-- It exited after the termination signal. -/
  | terminated
  /-- It had to be killed. -/
  | killed
  deriving DecidableEq, Inhabited

namespace StopTier

/-- The place of a tier in their order. -/
def rank (t : StopTier) : Nat := t.ctorIdx

instance : LE StopTier := ⟨fun a b => a.rank ≤ b.rank⟩

instance (a b : StopTier) : Decidable (a ≤ b) := inferInstanceAs (Decidable (a.rank ≤ b.rank))

/-- How two tiers compare. -/
def compare (a b : StopTier) : Ordering := Ord.compare a.rank b.rank

/-- The tiers in ascending order. -/
def sort (ts : List StopTier) : List StopTier := ts.mergeSort fun a b => a ≤ b

/-- The highest tier. -/
def max? (ts : List StopTier) : Option StopTier := (sort ts).getLast?

/-- A short name for the tier. -/
def label : StopTier → String
  | closed => "closed"
  | terminated => "terminated"
  | killed => "killed"

/-- The tier of a short name. -/
def ofLabel? (text : String) : Option StopTier :=
  [closed, terminated, killed].find? fun t => t.label == text

/-- The written form of a tier. -/
def describe : StopTier → String
  | closed => "Closed"
  | terminated => "Terminated"
  | killed => "Killed"

end StopTier

end Overseer
