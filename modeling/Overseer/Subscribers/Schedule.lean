import Overseer.Subscribers.Basic

/-!
# Running a set of subscribers

The tasks of a set run one at a time, in the order in which they learned that they have something
to do. A task runs until it has nothing left, but it takes up only so much at a time; then it is put
off (`SubscriberSet.turn`). Time goes by in rounds (`SubscriberSet.round`). A round is over when
nobody is left in line, or after a number of turns, and those who were put off in it are lined up
again at its end, the latest first.
-/

namespace Overseer.SubscriberSet

/-- How much a task takes up before it is put off. -/
def budget : Nat := 128

/-- The turns of a round. -/
def turnsPerRound : Nat := 61

/-- A worker's turn. -/
def workerTurn : Nat → SubscriberSet → Nat → SubscriberSet
  | 0, s, i => { s with putOff := .worker i :: s.putOff }
  | budget + 1, s, i =>
    match s.workers[i]? with
    | none => s
    | some w =>
      if !w.alive then s
      else if w.current.isNone && w.queue.isEmpty then { s with idle := s.idle ++ [.worker i] }
      else workerTurn budget (s.work i) i

/-- The turn of a listener that goes on. -/
def listenerTurn : Nat → SubscriberSet → Nat → SubscriberSet
  | 0, s, i => { s with putOff := .listener i :: s.putOff }
  | budget + 1, s, i =>
    match s.forward i with
    | none => { s with idle := s.idle ++ [.listener i] }
    | some s => listenerTurn budget s i

/-- The turn of the first task in line, if there is one. -/
def turn (s : SubscriberSet) : Option SubscriberSet :=
  match s.ready with
  | [] => none
  | .worker i :: ready => some (workerTurn budget { s with ready } i)
  | .listener i :: ready =>
    if s.listeners[i]?.all Listener.stopping then some ({ s with ready }.dismiss i)
    else some (listenerTurn budget { s with ready } i)

/-- Lets so many tasks have their turn, fewer if nobody is left in line. -/
def turns : Nat → SubscriberSet → SubscriberSet
  | 0, s => s
  | n + 1, s =>
    match s.turn with
    | none => s
    | some s => turns n s

/-- Lines those up again who were put off. -/
def lineUp (s : SubscriberSet) : SubscriberSet :=
  { s with ready := s.ready ++ s.putOff, putOff := [] }

/-- A round: a number of turns, after which those who were put off are lined up again. -/
def round (s : SubscriberSet) : SubscriberSet := (turns turnsPerRound s).lineUp

/-- Lets so many rounds go by, fewer if there is nothing left to do. -/
def run : Nat → SubscriberSet → SubscriberSet
  | 0, s => s
  | rounds + 1, s => if s.ready.isEmpty then s else run rounds s.round

/-- Lets rounds go by until a listener is gone, at most so many. -/
def awaitGone (i : Nat) : Nat → SubscriberSet → SubscriberSet
  | 0, s => s
  | rounds + 1, s => if (s.receiver? i).isNone then s else awaitGone i rounds s.round

/-- Stops all listeners, one after the other, each in at most so many rounds. -/
def unlisten (rounds : Nat) (s : SubscriberSet) : SubscriberSet :=
  (List.range s.listeners.length).foldl (fun s i => (s.askToStop i).awaitGone i rounds) s

/-- Ends the set: it waits for all of its workers, which finish what they have accepted. It has not
ended if one of them is not done after so many rounds, and it cannot end while a listener holds
it. -/
def shutdown (rounds : Nat) (s : SubscriberSet) : Option SubscriberSet :=
  if s.listening then none
  else
    let s := run rounds s
    if s.workers.all Worker.isDone then some s else none

end Overseer.SubscriberSet
