import Overseer.Config
import Overseer.Loop.Basic

/-!
# Serving

A server serves a peer: its signals are bound, its hooks run around its loop, and the signals are
put back. `Loop.serve` keeps this order however the run ends. A failure of the setup or of the loop
still has the last hook run; a panic does not. Either way the signals are as they were before. Only
a process that a signal ends leaves everything as it is.
-/

namespace Overseer.Loop

variable {σ : Type}

/-- Binds some signals as planned, one after the other. Signals may arrive after each. -/
def bindAll (plan : List (Signal × Disposition)) :
    List Signal → SignalManager → Code σ SignalManager
  | [], m => pure m
  | signal :: signals, m => do
    let m ← Code.modifySignals (m.replace signal (SignalManager.planned plan signal))
    Code.preempt
    bindAll plan signals m

/-- Binds all signals as the table says, and registers the socket to be shut when the process is
asked to quit. -/
def takeOver (table : SignalTable (Callback σ)) : Code σ SignalManager := do
  Code.modifySignals fun s => ((), s.clear)
  let m ← bindAll table.plan (Signal.all.filter Signal.trappable) {}
  let socket := (← get).process.socket
  Code.modifySignals fun s => ((), s.setWakeup (some socket))
  Code.preempt
  pure m

/-- Changes the signals of a world. -/
def withSignals (w : World σ) (f : SignalState → SignalState) : World σ :=
  { w with process := { w.process with signals := f w.process.signals } }

/-- Runs the last hook, then ends as it was going to. -/
def finalizing (srv : Server σ) (r : Except LoopError LoopExit) : Code σ LoopExit := fun w =>
  let leave (w : World σ) : EStateM.Result Halt (World σ) LoopExit :=
    match r with
    | .ok exit => .ok exit w
    | .error e => .error (.failed e) w
  match srv.finalize w with
  | .ok () w => leave w
  | .error (.failed _) w => leave w
  | .error halt w => .error halt w

/-- The setup and the loop, and the last hook unless they panicked. -/
def hooked (srv : Server σ) (table : SignalTable (Callback σ)) : Code σ LoopExit := fun w =>
  match (do srv.setup; run srv.handlers table : Code σ LoopExit) w with
  | .ok exit w => finalizing srv (.ok exit) w
  | .error (.failed e) w => finalizing srv (.error e) w
  | .error halt w => .error halt w

/-- Runs code and puts the signals back. -/
def restoring (m : SignalManager) (code : Code σ LoopExit) : Code σ LoopExit := fun w =>
  match code w with
  | .ok exit w => .ok exit (withSignals w fun s => (m.restore s).2)
  | .error (.failed e) w => .error (.failed e) (withSignals w fun s => (m.restore s).2)
  | .error (.panicked p) w => .error (.panicked p) (withSignals w m.release)
  | .error halt w => .error halt w

/-- Serves the peer to the end. -/
def serve (srv : Server σ) (config : Config) : Code σ LoopExit := do
  let w ← get
  let table := srv.bindSignals w.server (.ofTermination config.terminationSignal)
  if w.context.managed then
    let m ← takeOver table
    restoring m (hooked srv table)
  else hooked srv table

/-- The world in which a server begins to serve. -/
def start (server : σ) (config : Config) (process : Process) : World σ :=
  { server
    context :=
      { channel := { ({} : Channel).withLimit config.maxMessageSize with interruptible := true }
        managed := config.manageSignals }
    process }

/-- Serves a peer in the process that is already there, without a fork. -/
def runInProcess (srv : Server σ) (config : Config) (server : σ) (process : Process) :
    EStateM.Result Halt (World σ) LoopExit :=
  serve srv config (start (srv.afterFork server) config process)

end Overseer.Loop
