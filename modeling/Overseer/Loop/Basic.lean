import Overseer.Loop.Exit
import Overseer.Server.Basic

/-!
# The loop of a server

The loop receives messages and has them handled, one at a time. After each one, and after each read
that a signal interrupted, it calls the callbacks of the signals that were marked and looks whether
it is to end. A request to quit ends it before anything else is received; a read that fails while
there is such a request is no failure, for the request itself may have cut it short.

`Loop.pass` is one turn of the loop. Only a loop whose signals are managed looks at them.
-/

namespace Overseer.Loop

variable {σ : Type}

/-- Takes up the request to quit, if the signals are managed. -/
def pendingQuit : Code σ (Option Signal) := do
  if (← get).context.managed then Code.takeQuit else pure none

/-- Calls the callback of a signal, if it has one. -/
def callBack (table : SignalTable (Callback σ)) (signal : Signal) : Code σ Unit :=
  match table.callback? signal with
  | some run => run signal
  | none => pure ()

/-- Calls the callbacks of the signals that were marked, if the signals are managed. -/
def runDeferred (table : SignalTable (Callback σ)) : Code σ Unit := do
  if (← get).context.managed then
    (← Code.takePending).forM (callBack table)

/-- Has a message handled. The descriptor of the message before is given up. -/
def dispatch (handlers : Handlers (Handler σ)) (e : Envelope) : Code σ Unit := do
  modify fun w => { w with context := { w.context with descriptor := e.descriptor } }
  match handlers.get? e.message.name with
  | none => Code.fail (.unknownMessage e.message.name)
  | some handler => handler e.message.args

/-- Receives a message and has it handled. The end of the stream and a failed read end the loop; an
interrupted read does not. -/
def attend (handlers : Handlers (Handler σ)) : Code σ (Option LoopExit) := do
  match ← Code.receive with
  | .item e => dispatch handlers e; pure none
  | .ended => pure (some ((← pendingQuit).elim .peerClosed .signalled))
  | .failed .interrupted => pure none
  | .failed e =>
    match ← pendingQuit with
    | some signal => pure (some (.signalled signal))
    | none => Code.fail (.channel e)
  | .waiting => throw .waiting

/-- Looks whether the loop is to end. -/
def checkQuit : Code σ (Option LoopExit) := do
  match ← pendingQuit with
  | some signal => pure (some (.signalled signal))
  | none => pure (if (← get).context.done then some .quit else none)

/-- One turn of the loop. -/
def pass (handlers : Handlers (Handler σ)) (table : SignalTable (Callback σ)) :
    Code σ (Option LoopExit) := do
  match ← attend handlers with
  | some exit => pure (some exit)
  | none =>
    runDeferred table
    checkQuit

/-- Turns of the loop, up to a number of them. -/
def within (handlers : Handlers (Handler σ)) (table : SignalTable (Callback σ)) :
    Nat → Code σ LoopExit
  | 0 => throw .waiting
  | turns + 1 => do
    match ← pass handlers table with
    | some exit => pure exit
    | none => within handlers table turns

/-- The loop. A turn that is followed by another one has used up some of the input, so there are no
more turns than there is input. -/
def run (handlers : Handlers (Handler σ)) (table : SignalTable (Callback σ)) :
    Code σ LoopExit := do
  within handlers table ((← get).pendingInput + 1)

end Overseer.Loop
