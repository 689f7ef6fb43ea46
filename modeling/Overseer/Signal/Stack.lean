import Overseer.Channel.Basic
import Overseer.Signal.State
import Overseer.Socket.Pair

/-!
# Stacks of signal managers

The signals of a process may be taken over several times, by one manager on top of another. A
`SignalStack` is such a process, with a pair of sockets of which a request to quit can shut one end
for reading.
-/

namespace Overseer

/-- A process with the managers of its signals. -/
structure SignalStack where
  state : SignalState := {}
  /-- The managers, the last one first. -/
  managers : List SignalManager := []
  /-- The sockets. End `a` is the one that can be shut. -/
  pair : Pair := {}
  /-- The channel over the end that can be shut. -/
  channel : Channel := {}

namespace SignalStack

variable {α : Type}

/-- The number of the descriptor of the end that can be shut. -/
def descriptor : Int := 100

/-- The process in which some signals are bound. -/
def ofBindings (bindings : List (Signal × Disposition)) : SignalStack :=
  { state := bindings.foldl (fun s (signal, d) => s.bind signal d) {} }

/-- Does something with the signals. -/
def onState (f : SignalState → α × SignalState) (s : SignalStack) : α × SignalStack :=
  let (a, state) := f s.state
  (a, { s with state })

/-- Shuts a descriptor for reading, if there is one to be shut. -/
def shut (s : SignalStack) (fd : Option Int) : SignalStack :=
  if fd = some descriptor then { s with pair := s.pair.shutRead .a } else s

/-- Takes the signals over as planned. The answer is how many dispositions are remembered. -/
def install (plan : List (Signal × Disposition)) (s : SignalStack) : Nat × SignalStack :=
  let (m, s) := s.onState (SignalManager.install plan)
  (m.captured, { s with managers := m :: s.managers })

/-- Has the last manager put back what it remembers, if there is one. The answer is how many
dispositions it remembers then. -/
def restore (s : SignalStack) : Option Nat × SignalStack :=
  match s.managers with
  | [] => (none, s)
  | m :: managers =>
    let (m, s) := s.onState m.restore
    (some m.captured, { s with managers := m :: managers })

/-- Gives the last manager up. The answer says whether there was one. -/
def release (s : SignalStack) : Bool × SignalStack :=
  match s.managers with
  | [] => (false, s)
  | m :: managers => (true, { s with state := m.release s.state, managers })

/-- The signals when all managers are given up, the last one first. -/
def releaseAll (s : SignalStack) : SignalState :=
  s.managers.foldl (fun state m => m.release state) s.state

/-- Asks the process to quit. -/
def requestQuit (signal : Signal) (s : SignalStack) : SignalStack :=
  let (fd, s) := s.onState fun state => state.requestQuit signal
  s.shut fd

/-- Raises a signal, unless it cannot be trapped or would have its default effect. The answer says
whether it was raised. -/
def raise (signal : Signal) (s : SignalStack) : Bool × SignalStack :=
  if !signal.trappable || s.state.dispositions signal == .default then (false, s)
  else
    match s.onState fun state => state.deliver signal with
    | (.handled fd, s) => (true, s.shut fd)
    | (_, s) => (true, s)

/-- Registers the descriptor that a request to quit shuts. -/
def setWakeup (fd : Option Int) (s : SignalStack) : SignalStack :=
  { s with state := s.state.setWakeup fd }

end SignalStack

end Overseer
