import Overseer.Supervisor.Escalation

/-!
# The ways to stop a child

While a child is being stopped the scene changes in two respects only: its host does what it is
asked to, and the steps that are taken are announced. A wait for the child is a matter of the host
alone (`waitForExit_alone`), and the whole comes out in one of four ways, the `Ladder`s: each says
how far the escalation went, what it announced and what came of it (`escalate_alone`). This holds
of every host, so whatever the child does.
-/

namespace Overseer.Escalation

open Act

variable {η σ : Type} (H : Host η)

/-! ## Activities on their own -/

theorem alone_bind {α β : Type} (x : LongAct η σ α) (f : α → LongAct η σ β) (s : Scene η σ) :
    (x >>= f).alone H s = (f (x.alone H s).1).alone H (x.alone H s).2 :=
  Activity.run_bind _ x f s

theorem alone_pure {α : Type} (a : α) (s : Scene η σ) :
    (pure a : LongAct η σ α).alone H s = (a, s) := rfl

theorem alone_atOnce {α : Type} (act : Act η σ α) (s : Scene η σ) :
    LongAct.alone H (Activity.atOnce act) s = act s := rfl

theorem alone_await (span : Duration) (s : Scene η σ) :
    LongAct.alone H (Activity.await span) s =
      ((), { s with host := H.sleep span s.host }) := rfl

theorem alone_look (pid : Pid) (s : Scene η σ) :
    (look H pid : LongAct η σ Bool).alone H s =
      ((H.reap pid s.host).1, { s with host := (H.reap pid s.host).2 }) := rfl

theorem alone_announce (e : Event) (s : Scene η σ) :
    LongAct.alone H (Activity.atOnce (announce e)) s =
      ((), { s with events := s.events ++ [s.supervisor.signed e] }) := rfl

/-! ## Waiting -/

/-- What a host does while a child is waited for: `pollWithin`, without the scene around it. -/
def pollHost (pid : Pid) (pause : Duration) : Nat → Nat → η → Bool × η
  | 0, _, h => H.reap pid h
  | pauses + 1, rest, h =>
    if rest < pause.nanos then H.reap pid (H.sleep (.ofNanos rest) h)
    else
      match H.reap pid (H.sleep pause h) with
      | (true, h) => (true, h)
      | (false, h) => pollHost pid pause pauses (rest - pause.nanos) h

/-- What a host does in a wait for a child: `waitForExit`, without the scene around it. -/
def waitHost (pid : Pid) (timeout pause : Duration) (h : η) : Bool × η :=
  match H.reap pid h with
  | (true, h) => (true, h)
  | (false, h) =>
    if timeout = .zero then (false, h)
    else pollHost H pid pause (timeout.nanos / pause.nanos + 1) timeout.nanos h

theorem pollWithin_alone (pid : Pid) (pause : Duration) (pauses rest : Nat) (s : Scene η σ) :
    (pollWithin H pid pause pauses rest).alone H s =
      ((pollHost H pid pause pauses rest s.host).1,
        { s with host := (pollHost H pid pause pauses rest s.host).2 }) := by
  induction pauses generalizing rest s with
  | zero => rfl
  | succ pauses ih =>
    rw [pollWithin, pollHost]
    split
    · rw [alone_bind, alone_await, alone_look]
    · rw [alone_bind, alone_await, alone_bind, alone_look]
      generalize H.reap pid (H.sleep pause s.host) = answer
      obtain ⟨gone, h⟩ := answer
      cases gone with
      | true => rfl
      | false => exact ih (rest - pause.nanos) { s with host := h }

/-- **A wait is a matter of the host.** -/
theorem waitForExit_alone (pid : Pid) (timeout pause : Duration) (s : Scene η σ) :
    (waitForExit H pid timeout pause).alone H s =
      ((waitHost H pid timeout pause s.host).1,
        { s with host := (waitHost H pid timeout pause s.host).2 }) := by
  rw [waitForExit, alone_bind, alone_look, waitHost]
  generalize H.reap pid s.host = answer
  obtain ⟨gone, h⟩ := answer
  cases gone with
  | true => rfl
  | false =>
    show ((if timeout = .zero then pure false
      else pollWithin H pid pause (timeout.nanos / pause.nanos + 1) timeout.nanos :
        LongAct η σ Bool)).alone H { s with host := h } = _
    by_cases hzero : timeout = .zero
    · rw [if_pos hzero]
      simp only [if_pos hzero]
      rfl
    · rw [if_neg hzero]
      simp only [if_neg hzero]
      rw [pollWithin_alone]

/-! ## How far it goes -/

/-- How far an escalation goes. -/
inductive Ladder where
  /-- The child was gone before it was sent a signal. -/
  | closed
  /-- It was gone after the termination signal. -/
  | terminated
  /-- It was killed, and gone in time. -/
  | killed
  /-- It was killed, and not seen to be gone in time. -/
  | survived
  deriving DecidableEq

namespace Ladder

/-- What comes of it. -/
def outcome : Ladder → Outcome
  | closed => ⟨.closed, true⟩
  | terminated => ⟨.terminated, true⟩
  | killed => ⟨.killed, true⟩
  | survived => ⟨.killed, false⟩

/-- The termination signal was sent. -/
def terminationSent (config : Config) : Event :=
  { kind := .terminationSent
    timeoutMillis := some (min config.termTimeout.millis Event.maxTimeoutMillis)
    reason := some config.terminationSignal.name }

/-- The child was killed. -/
def killSent (config : Config) : Event :=
  { kind := .killSent
    timeoutMillis := some (min config.killTimeout.millis Event.maxTimeoutMillis) }

/-- The child was killed, and is still there. -/
def notReaped (config : Config) : Event :=
  { killSent config with reason := some "not reaped within kill_timeout" }

/-- What is announced of it, before the supervisor puts its name to it. -/
def steps (config : Config) : Ladder → List Event
  | closed => []
  | terminated => [terminationSent config]
  | killed => [terminationSent config, killSent config]
  | survived => [terminationSent config, killSent config, notReaped config]

end Ladder

/-- A scene when some steps of an escalation were announced, with its host in some state. -/
def climbed (s : Scene η σ) (steps : List Event) (h : η) : Scene η σ :=
  { s with host := h, events := s.events ++ steps.map s.supervisor.signed }

section
variable (s : Scene η σ) (steps : List Event) (h : η)

theorem climbed_nil : climbed s [] h = { s with host := h } := by
  simp [climbed]

theorem climbed_send (pid : Pid) (signal : Signal) :
    (send H pid signal).alone H (climbed s steps h) =
      ((H.kill pid signal h).1, climbed s steps (H.kill pid signal h).2) := rfl

theorem climbed_announce (e : Event) :
    LongAct.alone H (Activity.atOnce (announce e)) (climbed s steps h) =
      ((), climbed s (steps ++ [e]) h) := by
  rw [alone_announce]
  simp [climbed]

theorem climbed_wait (pid : Pid) (timeout pause : Duration) :
    (waitForExit H pid timeout pause).alone H (climbed s steps h) =
      ((waitHost H pid timeout pause h).1,
        climbed s steps (waitHost H pid timeout pause h).2) := by
  rw [waitForExit_alone]
  rfl

end

/-- What a host does when a child is killed: `killing`, without the scene around it. -/
def killHost (pid : Pid) (config : Config) (h : η) : Ladder × η :=
  match H.kill pid .kill h with
  | (false, h) => (.terminated, (H.reap pid h).2)
  | (true, h) =>
    match waitHost H pid config.killTimeout config.pollPeriod h with
    | (true, h) => (.killed, h)
    | (false, h) => (.survived, h)

/-- What a host does when a child is asked to stop: `terminating`, without the scene around it. -/
def terminateHost (pid : Pid) (config : Config) (h : η) : Ladder × η :=
  match H.kill pid config.terminationSignal h with
  | (false, h) => (.closed, (H.reap pid h).2)
  | (true, h) =>
    match waitHost H pid config.termTimeout config.pollPeriod h with
    | (true, h) => (.terminated, h)
    | (false, h) => killHost H pid config h

/-- What a host does when a child is stopped: `escalate`, without the scene around it. -/
def escalateHost (pid : Pid) (config : Config) (h : η) : Ladder × η :=
  match waitHost H pid config.exitTimeout config.pollPeriod h with
  | (true, h) => (.closed, h)
  | (false, h) => terminateHost H pid config h

/-- A child whose channel is closed comes to be killed: it is waited for and asked to stop, both in
vain, and it can still be signalled. -/
inductive Kills (pid : Pid) (config : Config) (h h' : η) : Prop
  | intro {h₁ h₂ h₃ : η}
      (hexit : waitHost H pid config.exitTimeout config.pollPeriod h = (false, h₁))
      (hasked : H.kill pid config.terminationSignal h₁ = (true, h₂))
      (hterm : waitHost H pid config.termTimeout config.pollPeriod h₂ = (false, h₃))
      (hkill : H.kill pid .kill h₃ = (true, h'))

/-- A child that survives was killed, and waited for in vain after that. -/
theorem survived_iff (pid : Pid) (config : Config) (h : η) :
    (escalateHost H pid config h).1 = .survived ↔
      ∃ h', Kills H pid config h h' ∧
        (waitHost H pid config.killTimeout config.pollPeriod h').1 = false := by
  constructor
  · intro hsurvived
    rw [escalateHost] at hsurvived
    split at hsurvived
    · cases hsurvived
    · next h₁ hexit =>
      rw [terminateHost] at hsurvived
      split at hsurvived
      · cases hsurvived
      · next h₂ hasked =>
        split at hsurvived
        · cases hsurvived
        · next h₃ hterm =>
          rw [killHost] at hsurvived
          split at hsurvived
          · cases hsurvived
          · next h' hkill =>
            split at hsurvived
            · cases hsurvived
            · next h₄ hlast => exact ⟨h', ⟨hexit, hasked, hterm, hkill⟩, by rw [hlast]⟩
  · rintro ⟨h', ⟨hexit, hasked, hterm, hkill⟩, hlast⟩
    simp only [escalateHost, hexit, terminateHost, hasked, hterm, killHost, hkill]
    generalize waitHost H pid config.killTimeout config.pollPeriod h' = out at hlast ⊢
    obtain ⟨gone, h₄⟩ := out
    cases hlast
    rfl

/-- The last tier, once the termination signal was announced. -/
theorem killing_alone (pid : Pid) (config : Config) (s : Scene η σ) (h : η) :
    (killing H pid config).alone H (climbed s [Ladder.terminationSent config] h) =
      ((killHost H pid config h).1.outcome,
        climbed s ((killHost H pid config h).1.steps config) (killHost H pid config h).2) := by
  rw [killing, alone_bind, climbed_send, killHost]
  generalize H.kill pid .kill h = answer
  obtain ⟨sent, h⟩ := answer
  cases sent with
  | false => rfl
  | true =>
    simp only [if_true]
    rw [alone_bind, climbed_announce, alone_bind, climbed_wait]
    generalize waitHost H pid config.killTimeout config.pollPeriod h = answer
    obtain ⟨gone, h⟩ := answer
    cases gone with
    | true => rfl
    | false =>
      simp only [Bool.false_eq_true, if_false]
      rw [alone_bind, climbed_announce]
      rfl

/-- The second tier and what follows it. -/
theorem terminating_alone (pid : Pid) (config : Config) (s : Scene η σ) (h : η) :
    (terminating H pid config).alone H (climbed s [] h) =
      ((terminateHost H pid config h).1.outcome,
        climbed s ((terminateHost H pid config h).1.steps config)
          (terminateHost H pid config h).2) := by
  rw [terminating, alone_bind, climbed_send, terminateHost]
  generalize H.kill pid config.terminationSignal h = answer
  obtain ⟨sent, h⟩ := answer
  cases sent with
  | false => rfl
  | true =>
    simp only [if_true]
    rw [alone_bind, climbed_announce, alone_bind, climbed_wait]
    generalize waitHost H pid config.termTimeout config.pollPeriod h = answer
    obtain ⟨gone, h⟩ := answer
    cases gone with
    | true => rfl
    | false => exact killing_alone H pid config s h

/-- **An escalation announces the steps that it takes**, and comes to what its ladder says. -/
theorem escalate_alone (pid : Pid) (config : Config) (s : Scene η σ) :
    (escalate H pid config).alone H s =
      ((escalateHost H pid config s.host).1.outcome,
        climbed s ((escalateHost H pid config s.host).1.steps config)
          (escalateHost H pid config s.host).2) := by
  rw [escalate, alone_bind, waitForExit_alone, escalateHost]
  generalize waitHost H pid config.exitTimeout config.pollPeriod s.host = answer
  obtain ⟨gone, h⟩ := answer
  simp only [← climbed_nil]
  cases gone with
  | true => rfl
  | false => exact terminating_alone H pid config s h

end Overseer.Escalation
