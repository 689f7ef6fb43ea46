import Overseer.Duration
import Overseer.Signal
import Overseer.Channel.Basic

/-!
# Settings of a supervised server
-/

namespace Overseer

/-- How one server is supervised. -/
structure Config where
  /-- How long the child may take to exit once its channel is closed. None at all: it is signalled
  right away. -/
  exitTimeout : Duration := .ofSecs 3
  /-- How long the child may take to exit after the termination signal. None at all: it is killed
  right away. -/
  termTimeout : Duration := .ofSecs 3
  /-- How long to wait for a killed child. -/
  killTimeout : Duration := .ofSecs 1
  /-- The pause between two looks at a child that is waited for. -/
  reapInterval : Duration := .ofMillis 10
  /-- The signal that asks the child to stop. -/
  terminationSignal : Signal := .term
  /-- How long the server may stay unused before a collection stops it. None at all: for ever. -/
  maxIdleTime : Duration := .zero
  /-- Descriptors that the child keeps besides its channel and the standard ones. -/
  keepDescriptors : List Int := []
  /-- Whether the child closes the descriptors that it is not to keep. -/
  closeInherited : Bool := true
  /-- Whether the child binds its signals. -/
  manageSignals : Bool := true
  /-- The longest body of a frame on the channel. -/
  maxMessageSize : Nat := Channel.defaultLimit
  deriving DecidableEq, Inhabited

namespace Config

/-- The time after which the server counts as idle, if it ever does. -/
def idleLimit? (c : Config) : Option Duration :=
  if c.maxIdleTime = .zero then none else some c.maxIdleTime

/-- The pause between two looks, at least a millisecond. -/
def pollPeriod (c : Config) : Duration := c.reapInterval.max (.ofMillis 1)

/-- The longest time that stopping the server takes: the three waits, and a pause for each. -/
def worstCaseStop (c : Config) : Except Panic Duration := do
  let waits ← c.exitTimeout.plus c.termTimeout
  let waits ← waits.plus c.killTimeout
  waits.plus (← Duration.times 3 c.pollPeriod)

end Config

end Overseer
