import Overseer.Channel.Basic
import Overseer.Loop.Error
import Overseer.Panic
import Overseer.Process.Basic

/-!
# What a server's code runs in

The code of a server (its hooks, handlers and callbacks) runs in a `World`: the server's own state,
the context of its loop and the process. It is `Code`: it changes the world and returns a value,
unless it comes to a halt. A halt is a failure, a panic, the end of the process, or a wait for
something that has not happened.

The functions here are what the code of a server can do to its context and its process.
-/

namespace Overseer

/-- The state of a server's loop. -/
structure Context where
  /-- The channel to the peer. -/
  channel : Channel := {}
  /-- Whether the loop was told to quit. -/
  done : Bool := false
  /-- The descriptor that came with the message that is being handled, until it is taken. -/
  descriptor : Option Descriptor := none
  /-- Whether the loop's signals are bound. -/
  managed : Bool := false
  deriving Inhabited

/-- What a server's code runs in. -/
structure World (σ : Type) where
  server : σ
  context : Context
  process : Process

/-- Why code came to a halt. -/
inductive Halt where
  | failed (error : LoopError)
  | panicked (panic : Panic)
  /-- A signal ended the process. -/
  | ended (signal : Signal)
  /-- The process waits for ever on what has happened so far. -/
  | waiting
  deriving DecidableEq, Inhabited

/-- Code that runs in a server's world. -/
abbrev Code (σ α : Type) := EStateM Halt (World σ) α

namespace World

variable {σ : Type}

/-- Bounds what the loop can still receive: the octets that are buffered and what can flow in. -/
def pendingInput (w : World σ) : Nat := w.context.channel.buffer.length + w.process.inflow

end World

namespace Code

variable {σ : Type}

/-- Gives up with a failure. -/
def fail {α : Type} (e : LoopError) : Code σ α := throw (.failed e)

/-- Panics. -/
def panic {α : Type} (p : Panic) : Code σ α := throw (.panicked p)

/-! ### The server and the loop -/

/-- Changes the server's state. -/
def modifyServer (f : σ → σ) : Code σ Unit := modify fun w => { w with server := f w.server }

/-- Ends the loop after the code that runs now. -/
def quit : Code σ Unit := modify fun w => { w with context := { w.context with done := true } }

/-- Takes the descriptor that came with the message that is being handled. -/
def takeDescriptor : Code σ (Option Descriptor) :=
  modifyGet fun w =>
    (w.context.descriptor, { w with context := { w.context with descriptor := none } })

/-! ### The channel -/

/-- Sends something on the channel. -/
def sending (send : Channel → Process → Except ChannelError Unit × Process) : Code σ Unit :=
  fun w =>
    match send w.context.channel w.process with
    | (.ok (), process) => .ok () { w with process }
    | (.error e, process) => .error (.failed (.channel e)) { w with process }

/-- Sends a message. -/
def reply (m : Message) : Code σ Unit := sending fun c p => c.send Process.transport m p

/-- Sends a message with a descriptor. -/
def replyWith (m : Message) (d : Descriptor) : Code σ Unit :=
  sending fun c p => c.sendWith Process.transport m d p

/-- Sends a scalar. -/
def sendScalar (data : Octets) : Code σ Unit :=
  sending fun c p => c.sendScalar Process.transport data p

/-- Why a process does not go on. -/
def haltOf (p : Process) : Halt :=
  match p.status with
  | .ended signal => .ended signal
  | _ => .waiting

/-- Receives something from the channel. -/
def receiving {α : Type} (receive : Channel → Process → Reception α × Channel × Process) :
    Code σ (Reception α) :=
  fun w =>
    let (r, channel, process) := receive w.context.channel w.process
    let w := { w with context := { w.context with channel }, process }
    match r with
    | .waiting => .error (haltOf process) w
    | r => .ok r w

/-- Receives a message. -/
def receive : Code σ (Reception Envelope) := receiving fun c p => c.receive Process.transport p

/-- Receives a scalar. -/
def receiveScalar : Code σ (Reception Octets) :=
  receiving fun c p => c.receiveScalar Process.transport p

/-! ### Signals -/

/-- Does something that may suspend or end the process, and goes on if it still runs. -/
def disturb (f : Process → Process) : Code σ Unit :=
  fun w =>
    let process := (f w.process).resume
    let w := { w with process }
    match process.status with
    | .running => .ok () w
    | _ => .error (haltOf process) w

/-- A point where signals that arrive may preempt the process. -/
def preempt : Code σ Unit := disturb Process.preempt

/-- Sends the process a signal. -/
def raise (signal : Signal) : Code σ Unit := disturb fun p => (p.deliver signal).2

/-- Asks the process to quit. -/
def requestQuit (signal : Signal) : Code σ Unit :=
  modify fun w => { w with process := w.process.requestQuit signal }

/-- Changes how the signals are bound and what their handlers have left. -/
def modifySignals {α : Type} (f : SignalState → α × SignalState) : Code σ α :=
  modifyGet fun w =>
    let (a, signals) := f w.process.signals
    (a, { w with process := { w.process with signals } })

/-- Takes up the request to quit. -/
def takeQuit : Code σ (Option Signal) := modifySignals SignalState.takeQuit

/-- Takes up the signals that were marked. -/
def takePending : Code σ (List Signal) := modifySignals SignalState.takePending

/-! ### Waiting -/

/-- Waits until the process is asked to quit. -/
def spin : Code σ Unit :=
  fun w =>
    let process := w.process.awaitQuit
    let w := { w with process }
    if process.status = .running ∧ process.signals.quitRequest.isSome then .ok () w
    else .error (haltOf process) w

/-- Waits for ever. -/
def hang : Code σ Unit :=
  fun w =>
    let process := w.process.hang
    .error (haltOf process) { w with process }

end Code

end Overseer
