import Overseer.Signal.State
import Overseer.Socket.Pipe

/-!
# A process at one end of a socket pair

A `Process` has bound its signals, reads from an inbox and has written what its peer is to read.
What is still to happen to it from outside lies in `Process.coming`: the peer writes, finishes or
hangs up, or a signal arrives. The process meets these one by one when it waits, so a process that
is not waiting sees the world stand still, and what it does is a function of what it is told.

Signals that arrive while it does not wait are those of `Process.arrivals`: it is preempted by the
next of them at each point where that makes a difference.
-/

namespace Overseer

/-- What happens to a process from outside. -/
inductive Stimulus where
  /-- The peer writes. -/
  | arrive (segment : Segment)
  /-- The peer will write no more. -/
  | finish
  /-- The peer is gone. It had not read everything, or it had. -/
  | hangUp (unread : Bool)
  | signal (signal : Signal)
  deriving DecidableEq, Inhabited

/-- Whether a process goes on. -/
inductive ProcessStatus where
  | running
  /-- It is suspended, and these signals wait for it to go on. -/
  | suspended (held : List Signal)
  /-- A signal ended it. -/
  | ended (signal : Signal)
  deriving DecidableEq, Inhabited

/-- A process with its end of a socket pair. -/
structure Process where
  signals : SignalState := {}
  status : ProcessStatus := .running
  /-- What the peer has written and the process has not read. -/
  inbox : Pipe := {}
  /-- What the process has written. -/
  sent : List Segment := []
  /-- Whether the peer is gone, so that nothing more can be written. -/
  peerGone : Bool := false
  /-- The number of its end of the pair. -/
  socket : Int := 3
  /-- The descriptors that it has open. -/
  descriptors : List Int := []
  /-- What is still to happen to it. -/
  coming : List Stimulus := []
  /-- The signals that preempt it, for each point where it may be preempted. -/
  arrivals : List (List Signal) := []
  /-- Whether it runs only when nobody else does. -/
  background : Bool := false
  deriving Inhabited

namespace Process

/-! ### Signals -/

/-- Shuts the inbox if it is what a descriptor refers to. -/
def shutRead (p : Process) (fd : Option Int) : Process :=
  if fd = some p.socket then { p with inbox := { p.inbox with shut := true } } else p

/-- A running process gets a signal. The answer says whether a handler ran. -/
def act (p : Process) (signal : Signal) : Bool × Process :=
  match p.signals.deliver signal with
  | (.ignored, signals) => (false, { p with signals })
  | (.unbound .none, signals) => (false, { p with signals })
  | (.unbound .ends, signals) => (false, { p with signals, status := .ended signal })
  | (.unbound .suspends, signals) => (false, { p with signals, status := .suspended [] })
  | (.handled shut, signals) => (true, { p with signals }.shutRead shut)

/-- Holds a signal back until the process goes on. -/
def hold (p : Process) (signal : Signal) : Process :=
  match p.status with
  | .suspended held => { p with status := .suspended (signal :: held) }
  | _ => p

/-- A process that goes on gets one of the signals that were held back, unless another of them has
suspended it again. -/
def release (x : Bool × Process) (signal : Signal) : Bool × Process :=
  if x.2.status = .running then
    let (ran, p) := x.2.act signal
    (x.1 || ran, p)
  else (x.1, x.2.hold signal)

/-- A process gets a signal, at once if it is running. A suspended one gets it when it goes on,
unless the signal ends it or has it go on. -/
def deliver (p : Process) (signal : Signal) : Bool × Process :=
  match p.status with
  | .running => p.act signal
  | .ended _ => (false, p)
  | .suspended held =>
    if signal = .kill then (false, { p with status := .ended .kill })
    else if signal = .cont then
      let due := Signal.all.filter fun s => held.contains s && s.defaultEffect != .suspends
      (.cont :: due).foldl release (false, { p with status := .running })
    else (false, p.hold signal)

/-- The process asks itself to quit. -/
def requestQuit (p : Process) (signal : Signal) : Process :=
  let (shut, signals) := p.signals.requestQuit signal
  { p with signals }.shutRead shut

/-- The next arrivals preempt the process. -/
def preempt (p : Process) : Process :=
  match p.arrivals with
  | [] => p
  | signals :: arrivals =>
    signals.foldl (fun p s => (p.deliver s).2) { p with arrivals }

/-! ### Waiting -/

/-- One thing happens to the process. The answer says whether a signal handler ran. -/
def meet (p : Process) : Stimulus → Bool × Process
  | .arrive segment => (false, { p with inbox := (p.inbox.send segment).2 })
  | .finish => (false, { p with inbox := { p.inbox with shut := true } })
  | .hangUp unread =>
    (false, { p with inbox := { p.inbox with shut := true, reset := unread }, peerGone := true })
  | .signal signal => p.deliver signal

/-- Waits, while one thing after the other happens, until the process can go on. It never can if it
is ended, or if nothing more happens. -/
def await {β : Type} (goesOn : Bool → Process → Option (β × Process)) :
    List Stimulus → Process → Option β × Process
  | [], p => (none, { p with coming := [] })
  | stimulus :: coming, p =>
    let (ran, p) := p.meet stimulus
    let p := { p with coming }
    match p.status with
    | .ended _ => (none, p)
    | .suspended _ => await goesOn coming p
    | .running =>
      match goesOn ran p with
      | some (b, p) => (some b, p)
      | none => await goesOn coming p

/-- Waits until the process is not suspended. -/
def resume (p : Process) : Process :=
  if p.status = .running then p else (await (fun _ p => some ((), p)) p.coming p).2

/-- Waits until the process is asked to quit. -/
def awaitQuit (p : Process) : Process :=
  if p.signals.quitRequest.isSome then p
  else
    (await (fun _ p => if p.signals.quitRequest.isSome then some ((), p) else none) p.coming p).2

/-- Waits for nothing. -/
def hang (p : Process) : Process :=
  (await (fun _ _ => (none : Option (Unit × Process))) p.coming p).2

/-! ### Reading and writing -/

/-- A read that does not wait. -/
def readNow (p : Process) (n : Nat) : Option (Reading × Process) :=
  match p.inbox.read false n with
  | (some r, inbox) => some (r, { p with inbox })
  | (none, _) => none

/-- What a waiting read answers after something happened: it is interrupted if a handler ran. -/
def readAgain (n : Nat) (ran : Bool) (p : Process) : Option (Reading × Process) :=
  if ran then some (.failure (.os ⟨4⟩), p) else p.readNow n

/-- Reads at most `n` octets, and waits for them if there are none. -/
def read (p : Process) (n : Nat) : Option Reading × Process :=
  let p := p.preempt
  match p.status with
  | .ended _ => (none, p)
  | .suspended _ => await (readAgain n) p.coming p
  | .running =>
    match p.readNow n with
    | some (r, p) => (some r, p)
    | none => await (readAgain n) p.coming p

/-- Writes octets with a descriptor. The queue to the peer has no bound. -/
def write (p : Process) (xs : Octets) (d : Option Descriptor) : Except IoError Nat × Process :=
  if p.peerGone then (.error .brokenPipe, p)
  else if xs.isEmpty then (.ok 0, p)
  else (.ok xs.length, { p with sent := p.sent ++ [⟨xs, d.toList, false⟩] })

/-- Bounds the reads that a stimulus can lead to. -/
def weight : Stimulus → Nat
  | .arrive segment => segment.octets.length + 1
  | _ => 1

/-- Bounds the reads that the process can make before it waits for ever or meets the end. -/
def inflow (p : Process) : Nat := p.inbox.size + total weight p.coming

/-- The process's end of the pair as a transport. -/
def transport : Transport Process where
  carriesDescriptors := true
  write := write
  read := read
  inflow := inflow
  stalls _ := 0

end Process

end Overseer
