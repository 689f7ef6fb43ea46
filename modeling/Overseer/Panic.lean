/-!
# Panics

A panic abandons a computation and carries a payload up to whoever catches it. Only a payload that
is a text can be shown.
-/

namespace Overseer

/-- What a panic carries. -/
inductive Panic where
  /-- A text. -/
  | text (message : String)
  /-- Any other value. -/
  | other
  deriving DecidableEq, Inhabited

namespace Panic

/-- How a panic is reported. -/
def message : Panic → String
  | text message => message
  | other => "unknown panic"

end Panic

end Overseer
