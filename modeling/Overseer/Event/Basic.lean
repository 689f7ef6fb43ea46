import Overseer.Duration
import Overseer.Supervisor.Error
import Overseer.Supervisor.Tier

/-!
# Events

What supervisors, collections and sets of subscribers announce. An event is of a kind and carries
what is known: the server or subscriber, the child, the tier, a time limit and a reason. Numbered
events can be put in the order in which they were made (`Event.number`).
-/

namespace Overseer

/-- Kinds of events. -/
inductive EventKind where
  /-- A subscriber panicked over an event. -/
  | subscriberPanicked
  /-- An event was dropped for a subscriber, or by a listener. -/
  | subscriberOverflow
  /-- The process was asked to shut down. -/
  | shutdownRequested
  /-- A server is about to be started. -/
  | serverStarting
  /-- A server runs. -/
  | serverStarted
  /-- A server is being stopped; its channel is closed. -/
  | stopRequested
  /-- The termination signal was sent. -/
  | terminationSent
  /-- The child was killed, or did not go away in time after that. -/
  | killSent
  /-- Stopping a server is over. -/
  | serverStopped
  /-- A child went away by itself. -/
  | serverExited
  /-- A server was added to a collection. -/
  | serverAdded
  /-- A server was removed from a collection. -/
  | serverRemoved
  /-- A server was stopped for being idle. -/
  | idleCleaned
  deriving DecidableEq, Inhabited

/-- The written form of a kind. -/
def EventKind.describe : EventKind → String
  | .subscriberPanicked => "SubscriberPanicked"
  | .subscriberOverflow => "SubscriberOverflow"
  | .shutdownRequested => "ShutdownRequested"
  | .serverStarting => "ServerStarting"
  | .serverStarted => "ServerStarted"
  | .stopRequested => "StopRequested"
  | .terminationSent => "TerminationSent"
  | .killSent => "KillSent"
  | .serverStopped => "ServerStopped"
  | .serverExited => "ServerExited"
  | .serverAdded => "ServerAdded"
  | .serverRemoved => "ServerRemoved"
  | .idleCleaned => "IdleCleaned"

/-- All kinds. -/
def EventKind.all : List EventKind :=
  [.subscriberPanicked, .subscriberOverflow, .shutdownRequested, .serverStarting, .serverStarted,
    .stopRequested, .terminationSent, .killSent, .serverStopped, .serverExited, .serverAdded,
    .serverRemoved, .idleCleaned]

/-- The kind of a written form. -/
def EventKind.ofName? (text : String) : Option EventKind := all.find? fun k => k.describe == text

/-- What is announced. -/
structure Event where
  kind : EventKind
  /-- The server's name, the key in the collection or the subscriber's name. -/
  server : Option String := none
  pid : Option Pid := none
  tier : Option StopTier := none
  /-- A time limit in milliseconds. -/
  timeoutMillis : Option Nat := none
  reason : Option String := none
  deriving DecidableEq, Inhabited

namespace Event

/-- The longest time limit that an event shows, in milliseconds. -/
def maxTimeoutMillis : Nat := (1 <<< 32) - 1

/-- The event with a time limit, in whole milliseconds and cut to the longest. -/
def withTimeout (e : Event) (d : Duration) : Event :=
  { e with timeoutMillis := some (min d.millis maxTimeoutMillis) }

/-- The event with a server. -/
def withServer (e : Event) (server : String) : Event := { e with server := some server }

/-- The event with a child. -/
def withPid (e : Event) (pid : Pid) : Event := { e with pid := some pid }

/-- The event with a tier. -/
def withTier (e : Event) (tier : StopTier) : Event := { e with tier := some tier }

/-- The event with a reason. -/
def withReason (e : Event) (reason : String) : Event := { e with reason := some reason }

/-- An event was dropped for a subscriber. -/
def overflow (subscriber reason : String) : Event :=
  { kind := .subscriberOverflow
    server := some subscriber
    reason := some ("subscriber=" ++ subscriber ++ " reason=" ++ reason) }

/-- A subscriber panicked. -/
def panicked (subscriber info : String) : Event :=
  { kind := .subscriberPanicked, server := some subscriber, reason := some info }

/-- Whether the event reports a dropped event. -/
def isOverflow (e : Event) : Bool := e.kind = .subscriberOverflow

/-- Whether the event reports a panic. -/
def isPanic (e : Event) : Bool := e.kind = .subscriberPanicked

/-- Numbers events in the order in which they are made, from a first number on. -/
def number (first : Nat) (events : List Event) : List (Nat × Event) :=
  events.mapIdx fun i e => (first + i, e)

end Event

end Overseer
