import Overseer.Supervisor.Scene

/-!
# Stopping a child

Once its channel is closed, a child has some time to exit. If it does not, it is sent the
termination signal and has some more time, and if it still does not, it is killed. `escalate` says
in which tier it was gone, and announces each step as it is taken; every wait is bounded.
-/

namespace Overseer.Escalation

open Act
open Activity (atOnce await)

variable {η σ : Type} (H : Host η)

/-- Looks whether a child is gone, and takes note of it. -/
def look (pid : Pid) : LongAct η σ Bool := atOnce (onHost (H.reap pid))

/-- Sends a child a signal. The answer is false if there is no such child any more. -/
def send (pid : Pid) (signal : Signal) : LongAct η σ Bool := atOnce (onHost (H.kill pid signal))

/-- Looks after each pause whether a child is gone, for `rest` nanoseconds, and a last time at the
end. At most so many pauses are made. -/
def pollWithin (pid : Pid) (pause : Duration) : Nat → Nat → LongAct η σ Bool
  | 0, _ => look H pid
  | pauses + 1, rest =>
    if rest < pause.nanos then do
      await (.ofNanos rest)
      look H pid
    else do
      await pause
      if ← look H pid then pure true else pollWithin pid pause pauses (rest - pause.nanos)

/-- Waits for a child to be gone. A time limit of zero is no wait at all. -/
def waitForExit (pid : Pid) (timeout pause : Duration) : LongAct η σ Bool := do
  if ← look H pid then pure true
  else if timeout = .zero then pure false
  else pollWithin H pid pause (timeout.nanos / pause.nanos + 1) timeout.nanos

/-- What came of stopping a child. -/
structure Outcome where
  tier : StopTier
  /-- Whether the child was seen to be gone. -/
  reaped : Bool
  deriving DecidableEq, Inhabited

/-- The last tier: the child is killed. -/
def killing (pid : Pid) (config : Config) : LongAct η σ Outcome := do
  if ← send H pid .kill then
    let sent := ({ kind := .killSent } : Event).withTimeout config.killTimeout
    atOnce (announce sent)
    if ← waitForExit H pid config.killTimeout config.pollPeriod then pure ⟨.killed, true⟩
    else
      atOnce (announce (sent.withReason "not reaped within kill_timeout"))
      pure ⟨.killed, false⟩
  else
    let _ ← look H pid
    pure ⟨.terminated, true⟩

/-- The second tier: the child is sent the termination signal. -/
def terminating (pid : Pid) (config : Config) : LongAct η σ Outcome := do
  if ← send H pid config.terminationSignal then
    atOnce (announce ((({ kind := .terminationSent } : Event).withTimeout
      config.termTimeout).withReason config.terminationSignal.name))
    if ← waitForExit H pid config.termTimeout config.pollPeriod then pure ⟨.terminated, true⟩
    else killing H pid config
  else
    let _ ← look H pid
    pure ⟨.closed, true⟩

/-- Stops a child whose channel is closed. -/
def escalate (pid : Pid) (config : Config) : LongAct η σ Outcome := do
  if ← waitForExit H pid config.exitTimeout config.pollPeriod then pure ⟨.closed, true⟩
  else terminating H pid config

/-- Looks whether a child is gone until the clock has come to a deadline, with a pause after each
look. At most so many pauses are made. -/
def pollUntil (pid : Pid) (deadline : Instant) (pause : Duration) : Nat → η → Bool × η
  | 0, h => H.reap pid h
  | pauses + 1, h =>
    match H.reap pid h with
    | (true, h) => (true, h)
    | (false, h) =>
      if deadline ≤ H.now h then (false, h)
      else pollUntil pid deadline pause pauses (H.sleep pause h)

/-- Kills a child and waits for it, within a bound. It panics if the clock cannot show the end of
the wait. -/
def killAndReap (pid : Pid) (bound pause : Duration) (h : η) : Except Panic Bool × η :=
  match H.reap pid h with
  | (true, h) => (.ok true, h)
  | (false, h) =>
    match H.kill pid .kill h with
    | (false, h) => let (_, h) := H.reap pid h; (.ok true, h)
    | (true, h) =>
      match (H.now h).plus bound with
      | .error p => (.error p, h)
      | .ok deadline =>
        let (gone, h) := pollUntil H pid deadline pause (bound.nanos / pause.nanos + 2) h
        (.ok gone, h)

end Overseer.Escalation
