import Overseer.Event.Basic
import Overseer.Event.Bus

/-!
# Sets of subscribers

A set hands events to its subscribers. Each subscriber has a queue of a bounded length and a worker
that takes events from it one at a time, so a slow subscriber holds up nobody. What goes wrong is
reported on a bus: an event that finds a queue full, or its worker gone, and a panic. A report of a
dropped event that is itself dropped is not reported again.

A listener forwards to the set what is published on the bus, those reports among it.

`SubscriberSet.emit`, `SubscriberSet.work` and `SubscriberSet.forward` are the steps of which every
run consists. The set also knows which workers and listeners have something to do, in the order in
which they learned of it (`SubscriberSet.ready`), and who was put off (`SubscriberSet.putOff`).
-/

namespace Overseer

/-- What a subscriber does with an event. -/
inductive Reaction where
  | returns
  /-- It panics while it handles the event. Its worker goes on. -/
  | panics (panic : Panic)
  /-- It panics before it starts to handle the event. Its worker goes down with it. -/
  | takesDown
  deriving DecidableEq, Inhabited

/-- What a subscriber does with the events that it is told of, one after the other. It may depend on
the events that it has been told of before, oldest first: a subscriber may remember them, or count
them. No two events have as many before them, so this is any row of reactions, also one that is up
to chance or to the time. -/
def Behaviour := List Event → Event → Reaction

/-- The behaviour of a subscriber that remembers nothing. -/
def Behaviour.ofEvent (reaction : Event → Reaction) : Behaviour := fun _ => reaction

instance : Coe (Event → Reaction) Behaviour := ⟨Behaviour.ofEvent⟩

instance : Inhabited Behaviour := ⟨fun _ _ => .returns⟩

/-- One who wants to be told of events. -/
structure Subscriber where
  name : String
  /-- The length of the queue; it is taken for 1 if it is 0. -/
  capacity : Nat := 1024
  reaction : Behaviour := fun _ _ => .returns
  deriving Inhabited

/-- The longest queue that there can be. -/
def Subscriber.maxCapacity : Nat := (1 <<< 61) - 1

/-- The panic over a queue that is longer than any there can be. -/
def Subscriber.panic? (s : Subscriber) : Option Panic :=
  if s.capacity ≤ maxCapacity then none
  else some (.text ("a semaphore may not have more than MAX_PERMITS permits (" ++
    toString maxCapacity ++ ")"))

/-- The worker of one subscriber. -/
structure Worker where
  subscriber : Subscriber
  /-- The events that were accepted and not taken up, oldest first. -/
  queue : List Event := []
  /-- The event that is being handled. -/
  current : Option Event := none
  /-- The events that were handled, oldest first. -/
  handled : List Event := []
  alive : Bool := true
  deriving Inhabited

/-- Whether a worker is done once nobody can offer it anything more: it is gone, or has nothing in
hand and nothing in its queue. -/
def Worker.isDone (w : Worker) : Bool := !w.alive || (w.current.isNone && w.queue.isEmpty)

/-- Why an event was not accepted. -/
inductive Refusal where
  | full
  | closed
  deriving DecidableEq, Inhabited

/-- How a refusal is reported. -/
def Refusal.reason : Refusal → String
  | full => "full"
  | closed => "closed"

/-- Offers an event to a worker, who accepts it unless its queue is full or it is gone. -/
def Worker.offer (w : Worker) (e : Event) : Option Refusal × Worker :=
  if !w.alive then (some .closed, w)
  else if w.queue.length < max 1 w.subscriber.capacity then
    (none, { w with queue := w.queue ++ [e] })
  else (some .full, w)

/-- What runs on its own. -/
inductive Runnable where
  | worker (index : Nat)
  | listener (index : Nat)
  deriving DecidableEq, Inhabited

/-- Whether a task forwards what is published on the bus. -/
def Runnable.listens : Runnable → Bool
  | worker _ => false
  | listener _ => true

/-- What forwards the events of the bus. -/
structure Listener where
  /-- Its receiver on the bus, unless the listener is gone. -/
  receiver : Option Nat
  /-- Whether it is to stop as soon as it runs again. -/
  stopping : Bool := false
  deriving DecidableEq, Inhabited

/-- Subscribers with their workers, and the bus that they report on. -/
structure SubscriberSet where
  bus : Bus Event
  workers : List Worker := []
  listeners : List Listener := []
  /-- The tasks that have something to do, in the order in which they are to run. -/
  ready : List Runnable := []
  /-- The tasks that have something to do and have just done a great deal, the latest first. -/
  putOff : List Runnable := []
  /-- The tasks that wait for something to do, in the order in which they began to. -/
  idle : List Runnable := []
  deriving Inhabited

namespace SubscriberSet

/-- A set of subscribers that report on a bus. -/
def ofSubscribers (bus : Bus Event) (subscribers : List Subscriber) : SubscriberSet :=
  { bus
    workers := subscribers.map fun subscriber => { subscriber }
    ready := (List.range subscribers.length).map Runnable.worker }

/-- A new set of subscribers. It panics over a queue that is longer than any there can be. -/
def make (bus : Bus Event) (subscribers : List Subscriber) : Except Panic SubscriberSet :=
  match subscribers.findSome? Subscriber.panic? with
  | some p => .error p
  | none => .ok (ofSubscribers bus subscribers)

/-- The number of subscribers. -/
def size (s : SubscriberSet) : Nat := s.workers.length

/-- Has the waiting tasks of some kind run again. -/
def wake (s : SubscriberSet) (p : Runnable → Bool) : SubscriberSet :=
  { s with ready := s.ready ++ s.idle.filter p, idle := s.idle.filter fun t => !p t }

/-- Publishes an event on the bus. -/
def publish (s : SubscriberSet) (e : Event) : SubscriberSet :=
  { s with bus := s.bus.publish e }.wake Runnable.listens

/-- Offers an event to one worker, and reports it if the worker refuses. -/
def emitTo (s : SubscriberSet) (e : Event) (i : Nat) : SubscriberSet :=
  match s.workers[i]? with
  | none => s
  | some w =>
    match w.offer e with
    | (none, w) => { s with workers := s.workers.set i w }.wake (· == Runnable.worker i)
    | (some refusal, _) =>
      if e.isOverflow then s else s.publish (.overflow w.subscriber.name refusal.reason)

/-- Hands an event to all subscribers. -/
def emit (s : SubscriberSet) (e : Event) : SubscriberSet :=
  (List.range s.workers.length).foldl (fun s i => s.emitTo e i) s

/-- A worker takes up the next event of its queue. -/
def takeUp (s : SubscriberSet) (i : Nat) : SubscriberSet :=
  match s.workers[i]? with
  | none => s
  | some w =>
    match w.current, w.queue with
    | none, e :: queue => { s with workers := s.workers.set i { w with current := some e, queue } }
    | _, _ => s

/-- A worker finishes the event that it has taken up. -/
def finish (s : SubscriberSet) (i : Nat) : SubscriberSet :=
  match s.workers[i]? with
  | none => s
  | some w =>
    match w.current with
    | none => s
    | some e =>
      let after := { w with current := none, handled := w.handled ++ [e] }
      match w.subscriber.reaction w.handled e with
      | .returns => { s with workers := s.workers.set i after }
      | .panics panic =>
        { s with workers := s.workers.set i after }.publish
          (.panicked w.subscriber.name panic.message)
      | .takesDown =>
        { s with workers := s.workers.set i { after with queue := [], alive := false } }

/-- A worker handles the next event of its queue. -/
def work (s : SubscriberSet) (i : Nat) : SubscriberSet := (s.takeUp i).finish i

/-- Starts a listener, which forwards what is published from now on. -/
def listen (s : SubscriberSet) : SubscriberSet :=
  let (receiver, bus) := s.bus.subscribe
  { s with
    bus
    listeners := s.listeners ++ [{ receiver := some receiver }]
    ready := s.ready ++ [.listener s.listeners.length] }

/-- The receiver of a listener that is not gone. -/
def receiver? (s : SubscriberSet) (i : Nat) : Option Nat := s.listeners[i]?.bind Listener.receiver

/-- Whether there is a listener that is not gone. -/
def listening (s : SubscriberSet) : Bool := s.listeners.any fun l => l.receiver.isSome

/-- A listener forwards one event, or reports that it missed some. There is no step to take if it
has seen everything. -/
def forward (s : SubscriberSet) (i : Nat) : Option SubscriberSet :=
  match s.receiver? i with
  | none => none
  | some receiver =>
    match s.bus.receive receiver with
    | (.event e, bus) => some ({ s with bus }.emit e)
    | (.lagged n, bus) =>
      some ({ s with bus }.publish
        { kind := .subscriberOverflow
          reason := some ("listener lagged by " ++ toString n ++ " events") })
    | (_, _) => none

/-- Asks a listener to stop. It does so when it runs again, and is lined up for that if it waits. -/
def askToStop (s : SubscriberSet) (i : Nat) : SubscriberSet :=
  { s with listeners := s.listeners.modify i fun l => { l with stopping := true } }.wake
    (· == Runnable.listener i)

/-- A listener goes away, and its receiver with it. -/
def dismiss (s : SubscriberSet) (i : Nat) : SubscriberSet :=
  match s.receiver? i with
  | none => s
  | some receiver =>
    { s with
      bus := s.bus.drop receiver
      listeners := s.listeners.modify i fun l => { l with receiver := none } }

end SubscriberSet

end Overseer
