import Overseer.Panic

/-!
# A bus

A bus hands each event that is published on it to every receiver there is at that moment. It
retains the newest events in a ring of a fixed size, whatever the receivers have read. A receiver
that falls further behind is told once how many events it missed, and goes on with the oldest
retained one.

Events are numbered from 0 in the order in which they were accepted; an event that is published
when there is no receiver is dropped and gets no number.
-/

namespace Overseer

/-- A bus with its receivers. -/
structure Bus (α : Type) where
  /-- The slots of the ring. -/
  size : Nat
  /-- The number of accepted events. -/
  accepted : Nat := 0
  /-- The newest accepted events, oldest first. -/
  retained : List α := []
  /-- For each receiver the number of the event it reads next, unless it was dropped. -/
  receivers : List (Option Nat) := []
  /-- For each handle whether events can still be published by it. -/
  handles : List Bool := [true]
  deriving DecidableEq

/-- What a receiver reads. -/
inductive Received (α : Type) where
  | event (event : α)
  /-- So many events were missed. -/
  | lagged (missed : Nat)
  /-- There is nothing to read yet. -/
  | nothing
  /-- There will be nothing more. -/
  | closed
  /-- The receiver was dropped. -/
  | dropped
  deriving DecidableEq, Inhabited

namespace Bus

variable {α : Type}

/-- The capacity of a bus unless another is given. -/
def defaultCapacity : Nat := 1024

/-- A bus that retains at least so many events: the ring has the next power of two. -/
def ofCapacity (capacity : Nat) : Bus α := { size := capacity.nextPowerOfTwo }

instance : Inhabited (Bus α) := ⟨ofCapacity defaultCapacity⟩

/-- A new bus that retains at least so many events. It panics over a capacity that is more than
half of what a word counts to, and over a ring that has no room in the memory. -/
def make (capacity : Nat) : Except Panic (Bus α) :=
  if 1 <<< 63 ≤ capacity then
    .error (.text "broadcast channel capacity exceeded `usize::MAX / 2`")
  else if 1 <<< 57 ≤ capacity.nextPowerOfTwo then .error (.text "capacity overflow")
  else .ok (ofCapacity capacity)

/-- The number of the oldest retained event. -/
def oldest (b : Bus α) : Nat := b.accepted - b.retained.length

/-- Whether anyone receives. -/
def observed (b : Bus α) : Bool := b.receivers.any Option.isSome

/-- Publishes an event. The oldest one makes room for it. -/
def publish (b : Bus α) (e : α) : Bus α :=
  if b.observed then
    { b with
      accepted := b.accepted + 1
      retained := (b.retained ++ [e]).drop (b.retained.length + 1 - b.size) }
  else b

/-- Publishes events one after the other. -/
def publishAll (b : Bus α) (es : List α) : Bus α := es.foldl publish b

/-- Adds a receiver, which reads the events that are published from now on. -/
def subscribe (b : Bus α) : Nat × Bus α :=
  (b.receivers.length, { b with receivers := b.receivers ++ [some b.accepted] })

/-- Reads as a receiver. -/
def receive (b : Bus α) (receiver : Nat) : Received α × Bus α :=
  match b.receivers[receiver]?.join with
  | none => (.dropped, b)
  | some next =>
    if next < b.oldest then
      (.lagged (b.oldest - next), { b with receivers := b.receivers.set receiver (some b.oldest) })
    else
      match b.retained[next - b.oldest]? with
      | some e => (.event e, { b with receivers := b.receivers.set receiver (some (next + 1)) })
      | none => (if b.handles.any id then .nothing else .closed, b)

/-- Reads as a receiver until there is nothing more to read, at most so many times. -/
def drainWithin : Nat → Bus α → Nat → List (Received α) × Bus α
  | 0, b, _ => ([], b)
  | reads + 1, b, receiver =>
    match b.receive receiver with
    | (.event e, b) => let (rs, b) := drainWithin reads b receiver; (.event e :: rs, b)
    | (.lagged n, b) => let (rs, b) := drainWithin reads b receiver; (.lagged n :: rs, b)
    | (_, b) => ([], b)

/-- Reads as a receiver until there is nothing more to read: the retained events, after at most one
notice of missed ones. -/
def drain (b : Bus α) (receiver : Nat) : List (Received α) × Bus α :=
  drainWithin (b.retained.length + 2) b receiver

/-- Drops a receiver. -/
def drop (b : Bus α) (receiver : Nat) : Bus α :=
  { b with receivers := b.receivers.set receiver none }

/-- Whether events can be published by a handle. -/
def isOpen (b : Bus α) (handle : Nat) : Bool := b.handles.getD handle false

/-- Makes another handle, which is as good as the one that it is made from. -/
def share (b : Bus α) (handle : Nat) : Nat × Bus α :=
  (b.handles.length, { b with handles := b.handles ++ [b.isOpen handle] })

/-- Gives a handle up. -/
def release (b : Bus α) (handle : Nat) : Bus α := { b with handles := b.handles.set handle false }

end Bus

end Overseer
