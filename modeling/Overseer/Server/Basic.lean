import Overseer.Server.Handlers
import Overseer.Server.KeepList
import Overseer.Server.World
import Overseer.Signal.Table
import Overseer.Supervisor.Error

/-!
# Servers

A server is its handlers, what it wants its signals to do, and its hooks. Two hooks run around the
fork, one on either side; two run around the loop.
-/

namespace Overseer

/-- Handles one message, given its arguments. -/
abbrev Handler (σ : Type) := List Octets → Code σ Unit

/-- Is called for a signal that was marked. -/
abbrev Callback (σ : Type) := Signal → Code σ Unit

/-- A server whose own state is of type `σ`. -/
structure Server (σ : Type) where
  /-- The name in events and reports. -/
  name : σ → String
  handlers : Handlers (Handler σ) := {}
  /-- Changes what the signals do, on top of what a loop does of itself. -/
  bindSignals : σ → SignalTable (Callback σ) → SignalTable (Callback σ) := fun _ t => t
  /-- Runs in the parent before the fork. It adds descriptors to those that the child keeps, or
  refuses. -/
  beforeFork : KeepList → σ → Except SupervisorError KeepList × σ := fun k s => (.ok k, s)
  /-- Runs in the child after the fork. -/
  afterFork : σ → σ := id
  /-- Runs before the loop. -/
  setup : Code σ Unit := pure ()
  /-- Runs after the loop. A failure of its own has no consequence. -/
  finalize : Code σ Unit := pure ()

end Overseer
