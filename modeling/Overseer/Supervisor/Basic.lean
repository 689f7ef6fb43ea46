import Overseer.Supervisor.Child
import Overseer.Supervisor.Escalation

/-!
# What supervisors do

A supervisor starts its server, talks to it and stops it. The operations end in the order of their
checks, and a failed check leaves the supervisor as it was.
-/

namespace Overseer

namespace Supervisor

open Act
open Activity (atOnce)

variable {η σ : Type} (H : Host η)

/-- Marks the server as used now. -/
def touch : Act η σ Unit := modify fun s =>
  { s with supervisor := { s.supervisor with lastActivity := H.now s.host } }

/-- Runs the hook before the fork. -/
def prepareFork : Act η σ (Except SupervisorError KeepList) :=
  modifyGet fun s =>
    let (keep, state) := s.supervisor.server.beforeFork {} s.supervisor.state
    (keep, { s with supervisor := { s.supervisor with state } })

/-- Forks the child on a line. -/
def forkOn (line : Line) (keep : KeepList) : Act η σ (Except SupervisorError Unit) := do
  let s := (← get).supervisor
  match ← onHost (H.fork line (Child.program s.server s.config keep s.state)) with
  | .error errno =>
    onHost fun h => ((), H.dropLine line h)
    pure (.error (.spawn (.os errno)))
  | .ok pid =>
    enter (.started pid line (({} : Channel).withLimit s.config.maxMessageSize) false)
    touch H
    announce { kind := .serverStarted }
    pure (.ok ())

/-- Starts the server: makes a line, runs the hook before the fork and forks the child. -/
def start : Act η σ (Except SupervisorError Unit) := do
  match (← get).supervisor.life with
  | .started .. | .stopped .. => pure (.error .alreadyStarted)
  | .notStarted =>
    announce { kind := .serverStarting }
    match ← onHost H.openLine with
    | .error e => pure (.error (.spawn e))
    | .ok line =>
      match ← prepareFork with
      | .error e =>
        onHost fun h => ((), H.dropLine line h)
        pure (.error e)
      | .ok keep => forkOn H line keep

/-- Stops a child whose channel was just closed, unless it was seen to be gone before. -/
def escalate (pid : Pid) (config : Config) (reaped : Bool) : LongAct η σ StopTier := do
  if reaped then pure .closed
  else
    let outcome ← Escalation.escalate H pid config
    atOnce (enter (.stopped pid outcome.reaped))
    pure outcome.tier

/-- Closes the channel to the child, and announces that it is to go. The answer has the child, and
whether it was seen to be gone. -/
def hangUp : Act η σ (Except SupervisorError (Pid × Bool)) := do
  let s := (← get).supervisor
  match s.life with
  | .notStarted | .stopped .. => pure (.error .notStarted)
  | .started pid line _ reaped =>
    enter (.stopped pid reaped)
    onHost fun h => ((), H.closeLine line h)
    announce (({ kind := .stopRequested } : Event).withTimeout s.config.exitTimeout)
    pure (.ok (pid, reaped))

/-- Stops the server: closes the channel and escalates until the child is gone. -/
def stop : LongAct η σ (Except SupervisorError StopTier) := do
  match ← atOnce (hangUp H) with
  | .error e => pure (.error e)
  | .ok (pid, reaped) =>
    let config := (← get).supervisor.config
    let tier ← escalate H pid config reaped
    atOnce (announce (({ kind := .serverStopped } : Event).withTier tier))
    pure (.ok tier)

/-- Looks whether the child still runs. That it went away by itself is announced. -/
def isRunning : Act η σ Bool := do
  let life := (← get).supervisor.life
  match life.pid? with
  | none => pure false
  | some pid =>
    if life.reaped then pure false
    else if ← onHost (H.reap pid) then
      enter life.reap
      if life.isStarted then
        announce (({ kind := .serverExited } : Event).withReason "reaped")
      pure false
    else pure true

/-- Waits for the child to be gone, with so many looks and a pause after each. -/
def awaitExit (pause : Duration) : Nat → Act η σ Bool
  | 0 => pure false
  | looks + 1 => do
    if ← isRunning H then
      onHost fun h => ((), H.sleep pause h)
      awaitExit pause looks
    else pure true

/-- Uses the channel to the child. -/
def onChannel {α : Type} (f : Transport η → Channel → η → α × Channel × η) :
    Act η σ (Except SupervisorError α) := do
  match (← get).supervisor.life with
  | .notStarted | .stopped .. => pure (.error .notStarted)
  | .started pid line channel reaped =>
    let (a, channel) ← onHost fun h =>
      let (a, channel, h) := f (H.transport line) channel h
      ((a, channel), h)
    enter (.started pid line channel reaped)
    pure (.ok a)

/-- Sends a message and receives the answer to it. -/
def ask (m : Message) (T : Transport η) (c : Channel) (h : η) : Reception Envelope × Channel × η :=
  match c.send T m h with
  | (.error e, h) => (.failed e, c, h)
  | (.ok (), h) => c.receive T h

/-- Sends a message and waits for one in return. A child that is gone is reported as such, whether
the sending or the waiting noticed it. There is no answer if the wait never ends. -/
def request (m : Message) : Act η σ (Except SupervisorError (Option Envelope)) := do
  touch H
  let pid := ((← get).supervisor.life.pid?).getD 0
  match ← onChannel H (ask m) with
  | .error e => pure (.error e)
  | .ok (.item e) => pure (.ok (some e))
  | .ok .waiting => pure (.ok none)
  | .ok .ended | .ok (.failed .closed) =>
    announce (({ kind := .serverExited } : Event).withReason ("no reply to '" ++ m.name ++ "'"))
    pure (.error (.exited pid))
  | .ok (.failed e) => pure (.error (.channel e))

/-- Starts the server, requests something for one message after the other, and stops it. -/
def converse (messages : List Message) :
    Act η σ
      (List (Except SupervisorError (Option Envelope)) × Except SupervisorError StopTier) := do
  match ← start H with
  | .error e => pure ([], .error e)
  | .ok () => do
    let answers ← messages.mapM (request H)
    pure (answers, ← (stop H).alone H)

/-- Gives the supervisor up: closes the channel, and kills a child that was not seen to be gone. -/
def drop : Act η σ (Except Panic Unit) := do
  let s := (← get).supervisor
  match s.life with
  | .started _ line _ _ => onHost fun h => ((), H.closeLine line h)
  | _ => pure ()
  match s.life.pid?, s.life.reaped with
  | some pid, false =>
    let result ← onHost (Escalation.killAndReap H pid s.config.killTimeout s.config.pollPeriod)
    pure (result.map fun _ => ())
  | _, _ => pure (.ok ())

end Supervisor

end Overseer
