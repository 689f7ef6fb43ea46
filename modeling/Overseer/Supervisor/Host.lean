import Overseer.Channel.Transport
import Overseer.Duration
import Overseer.Process.Basic
import Overseer.Supervisor.Error

/-!
# What a supervisor stands on

A supervisor works through its `Host`: the parent process with the children that it forks, the
lines to them and the clock. A child runs a `Program`, which says what the child shows to the
outside when this or that has happened to it. The program is a function, so a host may run it anew
whenever something more happens.
-/

namespace Overseer

/-- The two ends of a new socket pair, by their descriptor numbers. -/
structure Line where
  /-- The end that stays with the parent. -/
  near : Int
  /-- The end that goes to the child. -/
  far : Int
  deriving DecidableEq, Inhabited

/-- What a child shows to the outside. -/
structure View where
  /-- What it has written on its line. -/
  sent : List Segment := []
  /-- Whether it is gone. -/
  exited : Bool := false
  /-- Whether it takes no more from its line. -/
  deaf : Bool := false
  /-- Whether it has left something of its line unread. -/
  unread : Bool := false
  /-- What it has reported in the end. -/
  report : Option String := none
  /-- Whether it runs only when nobody else does. -/
  background : Bool := false
  deriving DecidableEq, Inhabited

/-- What a child does, given the descriptors it inherits and the number of its end of the line. -/
structure Program where
  /-- The descriptors that it keeps. -/
  keeps : List Int → Int → List Int
  /-- What it shows when this or that has happened to it. -/
  view : List Int → Int → List Stimulus → View

/-- The program that keeps nothing and shows nothing. -/
instance : Inhabited Program := ⟨fun _ _ => [], fun _ _ _ => {}⟩

/-- A parent process, its children and its clock, as a function of its state. -/
structure Host (η : Type) where
  now : η → Instant
  sleep : Duration → η → η
  /-- Makes a line to a child that is still to be forked. -/
  openLine : η → Except IoError Line × η
  /-- Gives a line up. -/
  dropLine : Line → η → η
  /-- Forks a child, which takes the far end of the line. The near end stays. -/
  fork : Line → Program → η → Except Errno Pid × η
  /-- The near end of a line. -/
  transport : Line → Transport η
  /-- Closes the near end of a line. -/
  closeLine : Line → η → η
  /-- Looks whether a child is gone, and takes note of it. -/
  reap : Pid → η → Bool × η
  /-- Sends a child a signal. The answer is false if there is no such child any more. -/
  kill : Pid → Signal → η → Bool × η

end Overseer
