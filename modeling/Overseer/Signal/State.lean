import Overseer.Signal

/-!
# Signals in a process

A process binds each signal to a `Disposition` and keeps three things that the handlers of a loop
write: a flag for each deferred signal, the signal that last asked it to quit, and the descriptor
to be shut when that happens. `SignalState.deliver` is what a signal does; `SignalState.takeQuit`
and `SignalState.takePending` take up what the handlers have left.

`SignalManager.install` binds every trappable signal and remembers how each was bound before;
`SignalManager.restore` puts that back, once.
-/

namespace Overseer

/-- What a signal is bound to. -/
inductive Disposition where
  /-- What the system does of itself. -/
  | default
  | ignore
  /-- The process is asked to quit. -/
  | quit
  /-- The signal is marked, to be taken up later. -/
  | deferred
  /-- One of the process's other handlers, which have nothing to do with those of a loop. -/
  | foreign (handler : Nat)
  deriving DecidableEq, Inhabited

/-- The written form of a disposition. -/
def Disposition.describe : Disposition → String
  | default => "Default"
  | ignore => "Ignore"
  | quit => "Quit"
  | deferred => "Deferred"
  | foreign handler => "Foreign(" ++ toString handler ++ ")"

/-- How the signals of a process are bound, and what its handlers have left. -/
structure SignalState where
  dispositions : Signal → Disposition := fun _ => .default
  /-- The deferred signals that were marked. -/
  pending : Signal → Bool := fun _ => false
  /-- The signal that last asked to quit. -/
  quitRequest : Option Signal := none
  /-- The descriptor to be shut for reading when the process is asked to quit. -/
  wakeup : Option Int := none
  deriving Inhabited

/-- What the delivery of a signal did. -/
inductive Delivery where
  /-- Nothing. -/
  | ignored
  /-- It did what the system does of itself. -/
  | unbound (effect : Signal.Effect)
  /-- It ran a handler, which shut a descriptor or not. -/
  | handled (shut : Option Int)
  deriving DecidableEq

namespace SignalState

/-- Binds one signal. -/
def bind (s : SignalState) (signal : Signal) (d : Disposition) : SignalState :=
  { s with dispositions := fun other => if other = signal then d else s.dispositions other }

/-- Marks or unmarks one signal. -/
def mark (pending : Signal → Bool) (signal : Signal) (marked : Bool) : Signal → Bool :=
  fun other => if other = signal then marked else pending other

/-- Asks the process to quit. The descriptor that is registered is shut for reading, which ends a
read that waits on it. -/
def requestQuit (s : SignalState) (signal : Signal) : Option Int × SignalState :=
  (s.wakeup, { s with quitRequest := some signal })

/-- Delivers a signal. -/
def deliver (s : SignalState) (signal : Signal) : Delivery × SignalState :=
  match s.dispositions signal with
  | .default => (.unbound signal.defaultEffect, s)
  | .ignore => (.ignored, s)
  | .quit => let (shut, s) := s.requestQuit signal; (.handled shut, s)
  | .deferred => (.handled none, { s with pending := mark s.pending signal true })
  | .foreign _ => (.handled none, s)

/-- Takes up the request to quit. -/
def takeQuit (s : SignalState) : Option Signal × SignalState :=
  (s.quitRequest, { s with quitRequest := none })

/-- Takes up the marks of some signals, one after the other. Before a mark is taken up the signals
that `arrivals` gives for it are marked. -/
def scan (arrivals : Signal → List Signal) :
    List Signal → (Signal → Bool) → List Signal × (Signal → Bool)
  | [], pending => ([], pending)
  | signal :: signals, pending =>
    let pending := (arrivals signal).foldl (fun pending s => mark pending s true) pending
    let (found, rest) := scan arrivals signals (mark pending signal false)
    (if pending signal then signal :: found else found, rest)

/-- Takes up all marks, lowest number first. -/
def takePending (s : SignalState) : List Signal × SignalState :=
  let (found, pending) := scan (fun _ => []) Signal.all s.pending
  (found, { s with pending })

/-- Forgets what the handlers have left. -/
def clear (s : SignalState) : SignalState :=
  { s with pending := fun _ => false, quitRequest := none }

/-- Registers the descriptor that a request to quit shuts. -/
def setWakeup (s : SignalState) (fd : Option Int) : SignalState :=
  { s with wakeup := fd.filter (0 ≤ ·) }

end SignalState

/-- Remembers how signals were bound before. -/
structure SignalManager where
  /-- The former dispositions, in the order in which they were replaced. -/
  saved : List (Signal × Disposition) := []
  deriving DecidableEq, Inhabited

namespace SignalManager

/-- What a plan says of a signal: its last entry counts, what it leaves out gets the default, and
the hang-up signal is ignored whatever the plan says. -/
def planned (plan : List (Signal × Disposition)) (signal : Signal) : Disposition :=
  if signal = .hup then .ignore else (plan.reverse.lookup signal).getD .default

/-- Replaces how one signal is bound. -/
def replace (m : SignalManager) (signal : Signal) (d : Disposition) (s : SignalState) :
    SignalManager × SignalState :=
  (⟨m.saved ++ [(signal, s.dispositions signal)]⟩, s.bind signal d)

/-- Binds every trappable signal as planned, after forgetting what earlier handlers have left. -/
def install (plan : List (Signal × Disposition)) (s : SignalState) : SignalManager × SignalState :=
  (Signal.all.filter Signal.trappable).foldl
    (fun (m, s) signal => m.replace signal (planned plan signal) s) ({}, s.clear)

/-- The number of dispositions that are remembered. -/
def captured (m : SignalManager) : Nat := m.saved.length

/-- Puts the former dispositions back, the last one first, and forgets them. No descriptor is shut
any more when the process is asked to quit. -/
def restore (m : SignalManager) (s : SignalState) : SignalManager × SignalState :=
  ({}, (m.saved.reverse.foldl (fun s (signal, d) => s.bind signal d) s).setWakeup none)

/-- Gives a manager up. It puts back what it still remembers. -/
def release (m : SignalManager) (s : SignalState) : SignalState :=
  if m.saved.isEmpty then s else (m.restore s).2

end SignalManager

end Overseer
