import Overseer.Proofs.Supervisor.Onward

/-!
# A supervisor in four fields

At each stage of its life a supervisor has just what `Life` gives it. A supervisor may as well keep
what it knows of its child in `Fields` that are independent of each other: a phase, a number, a
flag and a channel, each set on its own, so that nothing but the order of the assignments keeps them
together. `Fielded` is the scene of such a supervisor, and its operations set field by field. Each
of them answers as the one on `Life` does, and leads to the fields of what that leads to
(`Fielded.Mirrors`).
-/

namespace Overseer

/-! ## The fields -/

/-- The phases of a supervisor. -/
inductive Phase where
  | notStarted
  | started
  | stopped
  deriving DecidableEq

/-- What a supervisor knows of its child, field by field. -/
structure Fields where
  phase : Phase := .notStarted
  /-- The child's number. -/
  pid : Option Pid := none
  /-- Whether the child was seen to be gone. -/
  reaped : Bool := false
  /-- The near end of the line to the child, and the channel over it. -/
  channel : Option (Line × Channel) := none

/-- The fields of a stage of life. -/
def Life.fields : Life → Fields
  | notStarted => {}
  | started pid line channel reaped =>
    { phase := .started, pid := some pid, reaped, channel := some (line, channel) }
  | stopped pid reaped => { phase := .stopped, pid := some pid, reaped }

/-- A scene whose supervisor keeps its fields apart. -/
structure Fielded (η σ : Type) where
  fields : Fields := {}
  server : Server σ
  state : σ
  config : Config
  name : String
  lastActivity : Instant
  host : η
  events : List Event := []

namespace Fielded

open Escalation (escalate)

variable {η σ : Type}

/-- The scene with the fields of a supervisor's stage of life. -/
def of (s : Scene η σ) : Fielded η σ :=
  { fields := s.supervisor.life.fields
    server := s.supervisor.server
    state := s.supervisor.state
    config := s.supervisor.config
    name := s.supervisor.name
    lastActivity := s.supervisor.lastActivity
    host := s.host
    events := s.events }

/-- The scene that an escalation works on: it is given the child's number. -/
def lent (s : Fielded η σ) (pid : Pid) : Scene η σ :=
  { supervisor :=
      { server := s.server, state := s.state, config := s.config, name := s.name
        life := .stopped pid false, lastActivity := s.lastActivity }
    host := s.host
    events := s.events }

/-- What is done with the fields at once. -/
abbrev FieldAct (η σ α : Type) := StateM (Fielded η σ) α

/-! ## The operations -/

/-- Announces an event. -/
def announce (e : Event) : FieldAct η σ Unit := modify fun s =>
  let e := e.withServer s.name
  let e := match s.fields.pid with
    | some pid => e.withPid pid
    | none => e
  { s with events := s.events ++ [e] }

/-- Has the host do something. -/
def onHost {α : Type} (f : η → α × η) : FieldAct η σ α :=
  modifyGet fun s => let (a, host) := f s.host; (a, { s with host })

/-- Sets a field. -/
def assign (f : Fields → Fields) : FieldAct η σ Unit := modify fun s =>
  { s with fields := f s.fields }

variable (H : Host η)

/-- Marks the server as used now. -/
def touch : FieldAct η σ Unit := modify fun s => { s with lastActivity := H.now s.host }

/-- Runs the hook before the fork. -/
def prepareFork : FieldAct η σ (Except SupervisorError KeepList) :=
  modifyGet fun s =>
    let (keep, state) := s.server.beforeFork {} s.state
    (keep, { s with state })

/-- Starts the server. The fields are set once the child is there. -/
def start : FieldAct η σ (Except SupervisorError Unit) := do
  match (← get).fields.phase with
  | .started | .stopped => pure (.error .alreadyStarted)
  | .notStarted =>
    announce { kind := .serverStarting }
    match ← onHost H.openLine with
    | .error e => pure (.error (.spawn e))
    | .ok line =>
      match ← prepareFork with
      | .error e =>
        onHost fun h => ((), H.dropLine line h)
        pure (.error e)
      | .ok keep =>
        let s ← get
        match ← onHost (H.fork line (Child.program s.server s.config keep s.state)) with
        | .error errno =>
          onHost fun h => ((), H.dropLine line h)
          pure (.error (.spawn (.os errno)))
        | .ok pid =>
          let channel := ({} : Channel).withLimit s.config.maxMessageSize
          assign fun f => { f with pid := some pid }
          assign fun f => { f with channel := some (line, channel) }
          assign fun f => { f with phase := .started }
          touch H
          announce { kind := .serverStarted }
          pure (.ok ())

/-- Closes the channel, which takes the host's end of the line with it. -/
def closeChannel : FieldAct η σ Unit := do
  match (← get).fields.channel with
  | none => pure ()
  | some (line, _) =>
    assign fun f => { f with channel := none }
    onHost fun h => ((), H.closeLine line h)

/-- Has a child escalated against, which knows the child's number only. -/
def escalating (pid : Pid) : FieldAct η σ Escalation.Outcome := fun s =>
  let (outcome, scene) := (escalate H pid s.config).alone H (s.lent pid)
  (outcome, { s with host := scene.host, events := scene.events })

/-- Stops the server. -/
def stop : FieldAct η σ (Except SupervisorError StopTier) := do
  let s ← get
  match s.fields.phase, s.fields.pid with
  | .started, some pid =>
    assign fun f => { f with phase := .stopped }
    closeChannel H
    announce (({ kind := .stopRequested } : Event).withTimeout s.config.exitTimeout)
    let tier ← if s.fields.reaped then pure .closed else do
      let outcome ← escalating H pid
      assign fun f => { f with reaped := outcome.reaped }
      pure outcome.tier
    announce (({ kind := .serverStopped } : Event).withTier tier)
    pure (.ok tier)
  | _, _ => pure (.error .notStarted)

/-- Looks whether the child still runs. -/
def isRunning : FieldAct η σ Bool := do
  let s ← get
  match s.fields.pid with
  | none => pure false
  | some pid =>
    if s.fields.reaped then pure false
    else if ← onHost (H.reap pid) then
      assign fun f => { f with reaped := true }
      if s.fields.phase = .started then
        announce (({ kind := .serverExited } : Event).withReason "reaped")
      pure false
    else pure true

/-- Uses the channel to the child. -/
def onChannel {α : Type} (f : Transport η → Channel → η → α × Channel × η) :
    FieldAct η σ (Except SupervisorError α) := do
  match (← get).fields.channel with
  | none => pure (.error .notStarted)
  | some (line, channel) =>
    let (a, channel) ← onHost fun h =>
      let (a, channel, h) := f (H.transport line) channel h
      ((a, channel), h)
    assign fun f => { f with channel := some (line, channel) }
    pure (.ok a)

/-- Sends a message and waits for one in return. -/
def request (m : Message) : FieldAct η σ (Except SupervisorError (Option Envelope)) := do
  touch H
  let pid := (← get).fields.pid.getD 0
  match ← onChannel H (Supervisor.ask m) with
  | .error e => pure (.error e)
  | .ok (.item e) => pure (.ok (some e))
  | .ok .waiting => pure (.ok none)
  | .ok .ended | .ok (.failed .closed) =>
    announce (({ kind := .serverExited } : Event).withReason ("no reply to '" ++ m.name ++ "'"))
    pure (.error (.exited pid))
  | .ok (.failed e) => pure (.error (.channel e))

/-- Serves a peer in the parent process. The server's state is what is left of it. -/
def runInProcess (process : Process) : FieldAct η σ (Except Halt LoopExit) := fun s =>
  match Loop.runInProcess s.server s.config s.state process with
  | .ok exit w => (.ok exit, { s with state := w.server })
  | .error halt w => (.error halt, { s with state := w.server })

/-! ## They do what is done on the stages of life -/

/-- What is done with the fields answers as what is done with a supervisor, and leads to the fields
of what that leads to. -/
def Mirrors {α : Type} (x : FieldAct η σ α) (y : Act η σ α) (s : Scene η σ) : Prop :=
  x (of s) = ((y s).1, of (y s).2)

section
variable {H} {α β : Type} {s : Scene η σ}

theorem Mirrors.bind {x : FieldAct η σ α} {y : Act η σ α} {f : α → FieldAct η σ β}
    {g : α → Act η σ β} (hx : Mirrors x y s) (hf : Mirrors (f (y s).1) (g (y s).1) (y s).2) :
    Mirrors (x >>= f) (y >>= g) s := by
  show f (x (of s)).1 (x (of s)).2 = _
  rw [show x (of s) = _ from hx]
  exact hf

theorem Mirrors.get {f : Fielded η σ → FieldAct η σ β} {g : Scene η σ → Act η σ β}
    (h : Mirrors (f (of s)) (g s) s) : Mirrors (MonadState.get >>= f) (MonadState.get >>= g) s := h

theorem mirrors_pure (a : α) : Mirrors (pure a) (pure a : Act η σ α) s := rfl

theorem mirrors_onHost (f : η → α × η) : Mirrors (onHost f) (Act.onHost f) s := rfl

theorem mirrors_announce (e : Event) : Mirrors (announce e) (Act.announce e) s := by
  have hsigned : s.supervisor.signed e =
      match s.supervisor.life.fields.pid with
      | some pid => (e.withServer s.supervisor.name).withPid pid
      | none => e.withServer s.supervisor.name := by
    rw [Supervisor.signed]
    cases s.supervisor.life <;> rfl
  rw [Mirrors, Supervisor.announce_run, hsigned]
  rfl

end

theorem mirrors_start (s : Scene η σ) : Mirrors (start H) (Supervisor.start H) s := by
  obtain ⟨⟨server, state, config, name, life, lastActivity⟩, host, events⟩ := s
  cases life with
  | started | stopped => rfl
  | notStarted =>
    refine .get ?_
    refine (mirrors_announce _).bind ?_
    refine (mirrors_onHost _).bind ?_
    simp only [Supervisor.onHost_run, Supervisor.announce_run]
    generalize H.openLine host = answer
    obtain ⟨line, host⟩ := answer
    cases line with
    | error e => rfl
    | ok line =>
      refine Mirrors.bind (y := Supervisor.prepareFork) rfl ?_
      rw [Supervisor.prepareFork_run]
      generalize server.beforeFork {} state = answer
      obtain ⟨keep, state⟩ := answer
      cases keep with
      | error e => rfl
      | ok keep =>
        refine .get ?_
        refine (mirrors_onHost _).bind ?_
        simp only [Supervisor.onHost_run]
        generalize H.fork line _ host = answer
        obtain ⟨pid, host⟩ := answer
        cases pid with
        | error errno => rfl
        | ok pid => rfl

theorem mirrors_isRunning (s : Scene η σ) : Mirrors (isRunning H) (Supervisor.isRunning H) s := by
  obtain ⟨⟨server, state, config, name, life, lastActivity⟩, host, events⟩ := s
  cases life with
  | notStarted => rfl
  | started pid line channel reaped | stopped pid reaped =>
    cases reaped with
    | true => rfl
    | false =>
      refine .get ?_
      refine (mirrors_onHost _).bind ?_
      simp only [Supervisor.onHost_run]
      generalize H.reap pid host = answer
      obtain ⟨gone, host⟩ := answer
      cases gone <;> rfl

theorem mirrors_onChannel {α : Type} (f : Transport η → Channel → η → α × Channel × η)
    (s : Scene η σ) : Mirrors (onChannel H f) (Supervisor.onChannel H f) s := by
  obtain ⟨⟨server, state, config, name, life, lastActivity⟩, host, events⟩ := s
  cases life <;> rfl

theorem mirrors_request (m : Message) (s : Scene η σ) :
    Mirrors (request H m) (Supervisor.request H m) s := by
  have hpid : (of (Supervisor.touch H s).2).fields.pid =
      (Supervisor.touch H s).2.supervisor.life.pid? := by
    show s.supervisor.life.fields.pid = s.supervisor.life.pid?
    cases s.supervisor.life <;> rfl
  refine Mirrors.bind (x := touch H) (y := Supervisor.touch H) rfl (.get ?_)
  rw [hpid]
  refine (mirrors_onChannel H _ _).bind ?_
  generalize Supervisor.onChannel H (Supervisor.ask m) (Supervisor.touch H s).2 = out
  obtain ⟨answer, s'⟩ := out
  cases answer with
  | error e => exact mirrors_pure _
  | ok reply =>
    cases reply with
    | item | waiting => exact mirrors_pure _
    | ended => exact (mirrors_announce _).bind (mirrors_pure _)
    | failed e =>
      cases e with
      | closed => exact (mirrors_announce _).bind (mirrors_pure _)
      | _ => exact mirrors_pure _

theorem escalating_run (pid : Pid) (s : Fielded η σ) :
    escalating H pid s =
      ((Escalation.escalateHost H pid s.config s.host).1.outcome,
        { s with
          host := (Escalation.escalateHost H pid s.config s.host).2
          events := s.events ++
            ((Escalation.escalateHost H pid s.config s.host).1.steps s.config).map
              (Event.ofChild s.name pid) }) := by
  rw [escalating, Escalation.escalate_alone]
  rfl

theorem mirrors_stop (s : Scene η σ) : Mirrors (stop H) ((Supervisor.stop H).alone H) s := by
  obtain ⟨⟨server, state, config, name, life, lastActivity⟩, host, events⟩ := s
  cases life with
  | notStarted | stopped =>
    rw [Mirrors, Supervisor.stop_of_closed H rfl]
    rfl
  | started pid line channel reaped =>
    rw [Mirrors, Supervisor.stop_of_started H rfl]
    let hung : Fielded η σ :=
      { fields := { phase := .stopped, pid := some pid, reaped }
        server, state, config, name, lastActivity
        host := H.closeLine line host
        events := events ++ [.stopRequested name pid config] }
    cases reaped with
    | true =>
      have hrun : stop H (of ⟨⟨server, state, config, name, .started pid line channel true,
          lastActivity⟩, host, events⟩) =
            (.ok .closed, { hung with events := hung.events ++ [.stopped name pid .closed] }) := rfl
      rw [hrun, List.append_assoc]
      rfl
    | false =>
      have hrun : stop H (of ⟨⟨server, state, config, name, .started pid line channel false,
          lastActivity⟩, host, events⟩) =
            let (outcome, after) := escalating H pid hung
            (.ok outcome.tier,
              { after with
                fields := { after.fields with reaped := outcome.reaped }
                events := after.events ++ [.stopped name pid outcome.tier] }) := rfl
      rw [hrun, escalating_run]
      simp only [hung, List.append_assoc]
      rfl

end Fielded

end Overseer
