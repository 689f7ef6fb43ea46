import Overseer.Server.Basic

/-!
# Scripted servers

A server that is given as data: lists of actions for its handlers, callbacks and hooks. The actions
of a list run in order, and the first that fails ends the list. The server's state is a log, in
which the hooks, handlers and callbacks leave a line each, and a counter.
-/

namespace Overseer

/-- One thing that a scripted server does. -/
inductive Action where
  /-- Sends a message. -/
  | reply (message : Message)
  /-- Sends the current message back. -/
  | echo
  /-- Sends a message with a descriptor. -/
  | replyWith (message : Message) (descriptor : Descriptor)
  | sendScalar (data : Octets)
  | fail (error : LoopError)
  | panic (panic : Panic)
  | quit
  /-- Takes the descriptor of the current message and logs it. -/
  | takeDescriptor
  /-- Adds to the counter. -/
  | count (step : Int)
  /-- Sends the counter. -/
  | replyCount
  /-- Sends the log. -/
  | replyLog
  /-- Logs a text. -/
  | note (text : String)
  /-- Logs what the loop and the signals stand at. -/
  | noteState
  /-- Logs what the context shows of itself. -/
  | noteContext
  /-- Receives a message and logs it. -/
  | receive
  /-- Receives a scalar and logs it. -/
  | receiveScalar
  /-- Sends the process a signal. -/
  | raise (signal : Signal)
  /-- Asks the process to quit. -/
  | requestQuit (signal : Signal)
  /-- Takes up the request to quit and logs it. -/
  | takeQuit
  /-- Sends which descriptors are open. -/
  | isOpen (descriptors : List Int)
  /-- Waits for a request to quit. -/
  | spin
  /-- Waits for ever. -/
  | hang
  /-- Binds the signals anew with one deferred, raises that one, and puts the signals back. -/
  | raiseDeferred (signal : Signal)
  /-- Lets everybody else go first from now on. -/
  | background
  deriving DecidableEq, Inhabited

/-- A server given as data. -/
structure Script where
  name : String
  handlers : List (String × List Action) := []
  /-- The bindings of signals; the actions are those of the callbacks. -/
  signals : List (Signal × SignalAction (List Action)) := []
  setup : List Action := []
  finalize : List Action := []
  /-- The descriptors that the hook before the fork keeps. -/
  keeps : List Int := []
  /-- Why the hook before the fork refuses, if it does. -/
  refusal : Option String := none
  deriving Inhabited

namespace Script

/-- The state of a scripted server. -/
structure State where
  /-- What was logged, oldest first. -/
  log : List String := []
  counter : Int := 0
  deriving DecidableEq, Inhabited

/-- Appends a line to the log. -/
def State.note (s : State) (line : String) : State := { s with log := s.log ++ [line] }

/-- Logs a line. -/
def note (line : String) : Code State Unit := Code.modifyServer fun s => s.note line

/-- The arguments of a message that are texts. -/
private def texts (lines : List String) : List Octets := lines.map Octets.ofText

/-- What is logged of a frame that was received. -/
def noteReception {α : Type} (what : String) (describe : α → String) :
    Reception α → Code State Unit
  | .item a => note (what ++ describe a)
  | .ended => note (what ++ "end")
  | .failed e => Code.fail (.channel e)
  | .waiting => throw .waiting

/-- Binds the signals anew with one deferred, raises that one, and puts the signals back. -/
def raiseDeferred (signal : Signal) : Code State Unit := do
  let m ← Code.modifySignals (SignalManager.install [(signal, .deferred)])
  Code.raise signal
  Code.modifySignals fun s => ((), m.release s)

/-- Does one thing, as an answer to the current message. -/
def act (current : Message) : Action → Code State Unit
  | .reply m => Code.reply m
  | .echo => Code.reply current
  | .replyWith m d => Code.replyWith m d
  | .sendScalar data => Code.sendScalar data
  | .fail e => Code.fail e
  | .panic p => Code.panic p
  | .quit => Code.quit
  | .takeDescriptor => do
    note ("fd " ++ ((← Code.takeDescriptor).elim "none" Descriptor.label))
  | .count n => Code.modifyServer fun s => { s with counter := s.counter + n }
  | .replyCount => do
    Code.reply ⟨"count", texts [toString (← get).server.counter]⟩
  | .replyLog => do
    Code.reply ⟨"log", texts (← get).server.log⟩
  | .note line => note line
  | .noteState => do
    let w ← get
    note ("done=" ++ toString w.context.done ++ " managed=" ++ toString w.context.managed ++
      " quit=" ++ toString w.process.signals.quitRequest.isSome ++ " active=true")
  | .noteContext => do
    let w ← get
    note ("context=true done=" ++ toString w.context.done ++ " descriptor=" ++
      (if w.context.descriptor.isSome then "Some" else "None") ++ " open=true")
  | .receive => do noteReception "received " (fun e => e.message.name) (← Code.receive)
  | .receiveScalar => do noteReception "scalar " Octets.hex (← Code.receiveScalar)
  | .raise s => Code.raise s
  | .requestQuit s => Code.requestQuit s
  | .takeQuit => do note ("took " ++ ((← Code.takeQuit).elim "none" Signal.name))
  | .isOpen fds => do
    let w ← get
    Code.reply ⟨"is_open", texts (fds.map fun fd =>
      if w.process.descriptors.contains fd then "1" else "0")⟩
  | .spin => Code.spin
  | .hang => Code.hang
  | .raiseDeferred s => raiseDeferred s
  | .background => modify fun w => { w with process := { w.process with background := true } }

/-- Does one thing after the other. -/
def actAll (current : Message) (actions : List Action) : Code State Unit :=
  actions.forM (act current)

/-- What handles the messages of a name. -/
def handler (name : String) (actions : List Action) : Handler State := fun args => do
  note ("handle " ++ name)
  actAll ⟨name, args⟩ actions

/-- What is called for a signal. -/
def callback (actions : List Action) : Callback State := fun signal => do
  note ("signal " ++ signal.name)
  actAll ⟨"signal", texts [signal.name]⟩ actions

/-- What a signal is bound to. -/
def action : SignalAction (List Action) → SignalAction (Callback State)
  | .default => .default
  | .ignore => .ignore
  | .quit => .quit
  | .callback actions => .callback (callback actions)

/-- The last hook. Its failure is logged. -/
def finalizer (actions : List Action) : Code State Unit := do
  note "finalize"
  fun w =>
    match actAll ⟨"finalize", []⟩ actions w with
    | .error (.failed e) w => note ("finalize failed: " ++ e.message) w
    | r => r

/-- The server that a script describes. -/
def server (script : Script) : Server State where
  name _ := script.name
  handlers := .ofList (script.handlers.map fun (name, actions) => (name, handler name actions))
  bindSignals _ t := script.signals.foldl (fun t (signal, a) => t.set signal (action a)) t
  beforeFork keep s :=
    match script.refusal with
    | none => (.ok (keep.keepAll script.keeps), s)
    | some text => (.error (.hook "before_fork" text), s)
  afterFork s := s.note "after_fork"
  setup := do
    note "initialize"
    actAll ⟨"initialize", []⟩ script.setup
  finalize := finalizer script.finalize

end Script

end Overseer
