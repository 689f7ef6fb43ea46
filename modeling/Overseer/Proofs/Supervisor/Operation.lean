import Overseer.Proofs.Supervisor.Escalation
import Overseer.Supervisor.Basic

/-!
# What an operation does to a supervisor

A supervisor is used by one `Operation` after the other, each run to completion, and is dropped in
the end. What an operation can do is said once, by `Move`: which stage of life leads to which, and
what is announced on the way. It holds of every host, so whatever the child does and whatever the
channel to it is used for.
-/

namespace Overseer

namespace Event

/-- An event of a server that has no child yet. -/
def ofServer (name : String) (e : Event) : Event := e.withServer name

/-- An event of a server's child. -/
def ofChild (name : String) (pid : Pid) (e : Event) : Event := (e.withServer name).withPid pid

section
variable (name : String) (pid : Pid) (e : Event)

@[simp] theorem ofChild_kind : (ofChild name pid e).kind = e.kind := rfl
@[simp] theorem ofChild_pid : (ofChild name pid e).pid = some pid := rfl
@[simp] theorem ofChild_reason : (ofChild name pid e).reason = e.reason := rfl

end

/-- A server is about to be started. -/
def starting (name : String) : Event := ofServer name { kind := .serverStarting }

/-- A server runs. -/
def started (name : String) (pid : Pid) : Event := ofChild name pid { kind := .serverStarted }

/-- A child went away by itself. -/
def exited (name : String) (pid : Pid) (reason : String) : Event :=
  ofChild name pid { kind := .serverExited, reason := some reason }

/-- A server is being stopped. -/
def stopRequested (name : String) (pid : Pid) (config : Config) : Event :=
  ofChild name pid (({ kind := .stopRequested } : Event).withTimeout config.exitTimeout)

/-- Stopping a server is over. -/
def stopped (name : String) (pid : Pid) (tier : StopTier) : Event :=
  ofChild name pid { kind := .serverStopped, tier := some tier }

/-- All that is announced when a server is stopped, as far as the escalation goes. -/
def stopping (name : String) (pid : Pid) (config : Config) (ladder : Escalation.Ladder) :
    List Event :=
  stopRequested name pid config :: (ladder.steps config).map (ofChild name pid) ++
    [stopped name pid ladder.outcome.tier]

end Event

namespace Supervisor

open Act Escalation

variable {η σ : Type} (H : Host η)

/-! ## Acts on a scene -/

theorem bind_run {α β : Type} (act : Act η σ α) (f : α → Act η σ β) (s : Scene η σ) :
    (act >>= f) s = f (act s).1 (act s).2 := rfl

theorem pure_run {α : Type} (a : α) (s : Scene η σ) : (pure a : Act η σ α) s = (a, s) := rfl

theorem get_run (s : Scene η σ) : (get : Act η σ (Scene η σ)) s = (s, s) := rfl

theorem onHost_run {α : Type} (f : η → α × η) (s : Scene η σ) :
    onHost f s = ((f s.host).1, { s with host := (f s.host).2 }) := rfl

theorem announce_run (e : Event) (s : Scene η σ) :
    announce e s = ((), { s with events := s.events ++ [s.supervisor.signed e] }) := rfl

theorem enter_run (life : Life) (s : Scene η σ) :
    enter life s = ((), { s with supervisor := { s.supervisor with life } }) := rfl

theorem touch_run (s : Scene η σ) :
    touch H s =
      ((), { s with supervisor := { s.supervisor with lastActivity := H.now s.host } }) := rfl

theorem prepareFork_run (s : Scene η σ) :
    prepareFork s =
      ((s.supervisor.server.beforeFork {} s.supervisor.state).1,
        { s with supervisor := { s.supervisor with
          state := (s.supervisor.server.beforeFork {} s.supervisor.state).2 } }) := rfl

/-- Before there is a child events have the name of the server only. -/
theorem signed_of_none {s : Supervisor σ} (h : s.life.pid? = none) (e : Event) :
    s.signed e = e.ofServer s.name := by
  rw [signed, h]
  rfl

/-- From then on they have its number too. -/
theorem signed_of_some {s : Supervisor σ} {pid : Pid} (h : s.life.pid? = some pid) (e : Event) :
    s.signed e = e.ofChild s.name pid := by
  rw [signed, h]
  rfl

/-! ## Operations -/

/-- What is done with a supervisor. -/
inductive Operation (η : Type) where
  | start
  | stop
  | isRunning
  | request (m : Message)
  /-- The channel is used in some way. -/
  | useChannel (use : Transport η → Channel → η → Channel × η)
  | touch

/-- The scene after an operation. -/
def Operation.perform : Operation η → Scene η σ → Scene η σ
  | start, s => (Supervisor.start H s).2
  | stop, s => ((Supervisor.stop H).alone H s).2
  | isRunning, s => (Supervisor.isRunning H s).2
  | request m, s => (Supervisor.request H m s).2
  | useChannel use, s => (onChannel H (fun T c h => ((), use T c h)) s).2
  | touch, s => (Supervisor.touch H s).2

/-- The scene after some operations. -/
def performAll (ops : List (Operation η)) (s : Scene η σ) : Scene η σ :=
  ops.foldl (fun s op => op.perform H s) s

/-- One scene follows another: the server is the same, its supervisor has come to a stage of its
life, and some events are new. -/
structure Follows (s s' : Scene η σ) (life : Life) (news : List Event) : Prop where
  server_eq : s'.supervisor.server = s.supervisor.server
  config_eq : s'.supervisor.config = s.supervisor.config
  name_eq : s'.supervisor.name = s.supervisor.name
  life_eq : s'.supervisor.life = life
  events_eq : s'.events = s.events ++ news

/-- What an operation can do. -/
inductive Move (s s' : Scene η σ) : Prop
  /-- Nothing happens to the supervisor. -/
  | rests (h : Follows s s' s.supervisor.life [])
  /-- The server could not be started. -/
  | fails (hlife : s.supervisor.life = .notStarted)
      (h : Follows s s' .notStarted [.starting s.supervisor.name])
  /-- The server was started. -/
  | starts {pid : Pid} {line : Line} {channel : Channel} (hlife : s.supervisor.life = .notStarted)
      (h : Follows s s' (.started pid line channel false)
        [.starting s.supervisor.name, .started s.supervisor.name pid])
  /-- The channel was used. -/
  | talks {pid : Pid} {line : Line} {channel channel' : Channel} {reaped : Bool}
      (hlife : s.supervisor.life = .started pid line channel reaped)
      (h : Follows s s' (.started pid line channel' reaped) [])
  /-- There was no reply on the channel. -/
  | misses {pid : Pid} {line : Line} {channel channel' : Channel} {reaped : Bool} {m : Message}
      (hlife : s.supervisor.life = .started pid line channel reaped)
      (h : Follows s s' (.started pid line channel' reaped)
        [.exited s.supervisor.name pid ("no reply to '" ++ m.name ++ "'")])
  /-- The child was seen to be gone by itself. -/
  | notices {pid : Pid} {line : Line} {channel : Channel}
      (hlife : s.supervisor.life = .started pid line channel false)
      (h : Follows s s' (.started pid line channel true)
        [.exited s.supervisor.name pid "reaped"])
  /-- A child that had survived being stopped was seen to be gone. -/
  | settles {pid : Pid} (hlife : s.supervisor.life = .stopped pid false)
      (h : Follows s s' (.stopped pid true) [])
  /-- The server was stopped. -/
  | stops {pid : Pid} {line : Line} {channel : Channel} {reaped : Bool} {ladder : Ladder}
      (hlife : s.supervisor.life = .started pid line channel reaped)
      (h : Follows s s' (.stopped pid ladder.outcome.reaped)
        (Event.stopping s.supervisor.name pid s.supervisor.config ladder))

variable {s : Scene η σ}

/-! ## What each operation does -/

theorem start_of_born (h : s.supervisor.life ≠ .notStarted) :
    start H s = (.error .alreadyStarted, s) := by
  rw [start, bind_run, get_run]
  cases hlife : s.supervisor.life with
  | notStarted => exact absurd hlife h
  | started | stopped => rfl

theorem forkOn_move {line : Line} {keep : KeepList} {before : Scene η σ}
    (h : Follows before s .notStarted [.starting before.supervisor.name])
    (hlife : before.supervisor.life = .notStarted) : Move before (forkOn H line keep s).2 := by
  simp only [forkOn, bind_run, get_run, onHost_run]
  generalize H.fork line _ s.host = answer
  obtain ⟨pid, host⟩ := answer
  cases pid with
  | error e => exact .fails hlife ⟨h.server_eq, h.config_eq, h.name_eq, h.life_eq, h.events_eq⟩
  | ok pid =>
    refine .starts hlife ⟨h.server_eq, h.config_eq, h.name_eq, rfl, ?_⟩
    simp only [bind_run, enter_run, touch_run, announce_run, pure_run]
    rw [signed_of_some rfl, h.events_eq, List.append_assoc]
    simp only [h.name_eq]
    rfl

theorem start_move (s : Scene η σ) : Move s (start H s).2 := by
  by_cases hlife : s.supervisor.life = .notStarted
  · rw [start, bind_run, get_run, hlife]
    simp only [bind_run, announce_run, onHost_run]
    rw [signed_of_none (by rw [hlife]; rfl)]
    generalize H.openLine s.host = answer
    obtain ⟨line, host⟩ := answer
    cases line with
    | error e => exact .fails hlife ⟨rfl, rfl, rfl, hlife, rfl⟩
    | ok line =>
      simp only [bind_run, prepareFork_run]
      generalize s.supervisor.server.beforeFork {} s.supervisor.state = answer
      obtain ⟨keep, state⟩ := answer
      cases keep with
      | error e => exact .fails hlife ⟨rfl, rfl, rfl, hlife, rfl⟩
      | ok keep => exact forkOn_move H ⟨rfl, rfl, rfl, hlife, rfl⟩ hlife
  · rw [start_of_born H hlife]
    exact .rests ⟨rfl, rfl, rfl, rfl, (List.append_nil _).symm⟩

/-- An operation that changes at most the host and when the server was last used. -/
theorem Move.of_same {s' : Scene η σ} (hserver : s'.supervisor.server = s.supervisor.server)
    (hconfig : s'.supervisor.config = s.supervisor.config)
    (hname : s'.supervisor.name = s.supervisor.name)
    (hlife : s'.supervisor.life = s.supervisor.life) (hevents : s'.events = s.events) :
    Move s s' :=
  .rests ⟨hserver, hconfig, hname, hlife, by rw [hevents, List.append_nil]⟩

/-- A child that is known to be gone, or that there is not, is not looked at. -/
theorem isRunning_of_reaped
    (h : s.supervisor.life.pid? = none ∨ s.supervisor.life.reaped = true) :
    isRunning H s = (false, s) := by
  rw [isRunning, bind_run, get_run]
  cases hpid : s.supervisor.life.pid? with
  | none => rfl
  | some pid =>
    have hreaped : s.supervisor.life.reaped = true := h.resolve_left (by rw [hpid]; nofun)
    simp only
    rw [if_pos hreaped]
    rfl

/-- A child is looked at. If it is found to be gone then that is noted, and announced unless it was
meant to go. -/
theorem isRunning_of_unreaped {pid : Pid} (hpid : s.supervisor.life.pid? = some pid)
    (hreaped : s.supervisor.life.reaped = false) :
    isRunning H s =
      if (H.reap pid s.host).1 then
        (false,
          { supervisor := { s.supervisor with life := s.supervisor.life.reap }
            host := (H.reap pid s.host).2
            events := s.events ++
              if s.supervisor.life.isStarted then [.exited s.supervisor.name pid "reaped"]
              else [] })
      else (true, { s with host := (H.reap pid s.host).2 }) := by
  have hpid' : s.supervisor.life.reap.pid? = some pid := by
    cases hlife : s.supervisor.life <;> rw [hlife] at hpid <;> exact hpid
  rw [isRunning, bind_run, get_run]
  simp only [hpid]
  rw [if_neg (by rw [hreaped]; nofun), bind_run, onHost_run]
  cases (H.reap pid s.host).1 with
  | false => rfl
  | true =>
    simp only [if_true]
    rw [bind_run, enter_run]
    cases s.supervisor.life.isStarted with
    | false =>
      simp [pure_run]
    | true =>
      simp only [if_true]
      rw [bind_run, announce_run, signed_of_some hpid']
      rfl

theorem isRunning_move (s : Scene η σ) : Move s (isRunning H s).2 := by
  by_cases hknown : s.supervisor.life.pid? = none ∨ s.supervisor.life.reaped = true
  · rw [isRunning_of_reaped H hknown]
    exact .of_same rfl rfl rfl rfl rfl
  · rw [not_or, Bool.not_eq_true] at hknown
    obtain ⟨hpid, hreaped⟩ := hknown
    obtain ⟨pid, hpid⟩ := Option.ne_none_iff_exists'.1 hpid
    rw [isRunning_of_unreaped H hpid hreaped]
    split
    · cases hlife : s.supervisor.life with
      | notStarted =>
        rw [hlife] at hpid
        cases hpid
      | started pid' line channel reaped =>
        rw [hlife] at hpid hreaped
        cases hpid
        obtain rfl : reaped = false := hreaped
        exact .notices hlife ⟨rfl, rfl, rfl, rfl, rfl⟩
      | stopped pid' reaped =>
        rw [hlife] at hpid hreaped
        cases hpid
        obtain rfl : reaped = false := hreaped
        exact .settles hlife ⟨rfl, rfl, rfl, rfl, rfl⟩
    · exact .of_same rfl rfl rfl rfl rfl

/-- A supervisor without a channel cannot use one. -/
theorem onChannel_of_closed {α : Type} (f : Transport η → Channel → η → α × Channel × η)
    (h : s.supervisor.life.isStarted = false) : onChannel H f s = (.error .notStarted, s) := by
  rw [onChannel, bind_run, get_run]
  cases hlife : s.supervisor.life with
  | notStarted | stopped => rfl
  | started =>
    rw [hlife] at h
    cases h

theorem onChannel_of_started {α : Type} (f : Transport η → Channel → η → α × Channel × η)
    {pid : Pid} {line : Line} {channel : Channel} {reaped : Bool}
    (h : s.supervisor.life = .started pid line channel reaped) :
    ∃ channel' host, onChannel H f s =
      (.ok (f (H.transport line) channel s.host).1,
        { s with
          supervisor := { s.supervisor with life := .started pid line channel' reaped }
          host }) := by
  rw [onChannel, bind_run, get_run, h]
  exact ⟨_, _, rfl⟩

theorem useChannel_move (use : Transport η → Channel → η → Channel × η) (s : Scene η σ) :
    Move s ((Operation.useChannel use).perform H s) := by
  show Move s (onChannel H _ s).2
  cases hlife : s.supervisor.life with
  | notStarted | stopped =>
    rw [onChannel_of_closed H _ (by rw [hlife]; rfl)]
    exact .of_same rfl rfl rfl rfl rfl
  | started pid line channel reaped =>
    obtain ⟨channel', host, hrun⟩ := onChannel_of_started H (fun T c h => ((), use T c h)) hlife
    rw [hrun]
    exact .talks hlife ⟨rfl, rfl, rfl, rfl, (List.append_nil _).symm⟩

theorem request_move (m : Message) (s : Scene η σ) : Move s (request H m s).2 := by
  rw [request, bind_run, touch_run, bind_run, get_run, bind_run]
  cases hlife : s.supervisor.life with
  | notStarted | stopped =>
    rw [onChannel_of_closed H _ (by simp only [hlife]; rfl)]
    exact .of_same rfl rfl rfl rfl rfl
  | started pid line channel reaped =>
    obtain ⟨channel', host, hrun⟩ := onChannel_of_started H (ask m)
      (s := { s with supervisor := { s.supervisor with lastActivity := H.now s.host } }) hlife
    rw [hrun]
    generalize (ask m (H.transport line) channel s.host).1 = answer
    have htalks : Move s
        { s with
          supervisor := { s.supervisor with
            lastActivity := H.now s.host, life := .started pid line channel' reaped }
          host } :=
      .talks hlife ⟨rfl, rfl, rfl, rfl, (List.append_nil _).symm⟩
    have hmisses : Move s
        { s with
          supervisor := { s.supervisor with
            lastActivity := H.now s.host, life := .started pid line channel' reaped }
          host
          events := s.events ++
            [.exited s.supervisor.name pid ("no reply to '" ++ m.name ++ "'")] } :=
      .misses hlife ⟨rfl, rfl, rfl, rfl, rfl⟩
    cases answer with
    | item e => exact htalks
    | ended => exact hmisses
    | waiting => exact htalks
    | failed e =>
      cases e with
      | closed => exact hmisses
      | _ => exact htalks

theorem stop_of_closed (h : s.supervisor.life.isStarted = false) :
    (stop H).alone H s = (.error .notStarted, s) := by
  rw [stop, alone_bind, alone_atOnce, hangUp, bind_run, get_run]
  cases hlife : s.supervisor.life with
  | notStarted | stopped => rfl
  | started =>
    rw [hlife] at h
    cases h

theorem hangUp_of_started {pid : Pid} {line : Line} {channel : Channel} {reaped : Bool}
    (h : s.supervisor.life = .started pid line channel reaped) :
    hangUp H s =
      (.ok (pid, reaped),
        { supervisor := { s.supervisor with life := .stopped pid reaped }
          host := H.closeLine line s.host
          events := s.events ++ [.stopRequested s.supervisor.name pid s.supervisor.config] }) := by
  rw [hangUp, bind_run, get_run, h]
  rfl

/-- What a host does once the channel to a child is closed. A child that was seen to be gone is left
alone. -/
def stopHost (pid : Pid) (config : Config) (reaped : Bool) (h : η) : Ladder × η :=
  if reaped then (.closed, h) else escalateHost H pid config h

theorem escalate_of_stopped {pid : Pid} {reaped : Bool}
    (h : s.supervisor.life = .stopped pid reaped) :
    (Supervisor.escalate H pid s.supervisor.config reaped).alone H s =
      let out := stopHost H pid s.supervisor.config reaped s.host
      (out.1.outcome.tier,
        { supervisor := { s.supervisor with life := .stopped pid out.1.outcome.reaped }
          host := out.2
          events := s.events ++
            (out.1.steps s.supervisor.config).map (Event.ofChild s.supervisor.name pid) }) := by
  cases reaped with
  | true =>
    rw [Supervisor.escalate, if_pos rfl, alone_pure]
    show (_, s) = (_, { s with
      supervisor := { s.supervisor with life := .stopped pid true }, events := s.events ++ [] })
    rw [← h, List.append_nil]
    rfl
  | false =>
    have hsigned : s.supervisor.signed = Event.ofChild s.supervisor.name pid :=
      funext fun e => signed_of_some (by rw [h]; rfl) e
    rw [Supervisor.escalate, if_neg (by nofun), alone_bind, escalate_alone, alone_bind,
      alone_atOnce, ← hsigned]
    rfl

/-- **Stopping a server** returns the tier that it announces in the end, and goes as far as it
announces. -/
theorem stop_of_started {pid : Pid} {line : Line} {channel : Channel} {reaped : Bool}
    (h : s.supervisor.life = .started pid line channel reaped) :
    (stop H).alone H s =
      let out := stopHost H pid s.supervisor.config reaped (H.closeLine line s.host)
      (.ok out.1.outcome.tier,
        { supervisor := { s.supervisor with life := .stopped pid out.1.outcome.reaped }
          host := out.2
          events :=
            s.events ++ Event.stopping s.supervisor.name pid s.supervisor.config out.1 }) := by
  let hung : Scene η σ :=
    { supervisor := { s.supervisor with life := .stopped pid reaped }
      host := H.closeLine line s.host
      events := s.events ++ [.stopRequested s.supervisor.name pid s.supervisor.config] }
  have hlife : hung.supervisor.life = .stopped pid reaped := rfl
  rw [stop, alone_bind, alone_atOnce, hangUp_of_started H h]
  show LongAct.alone H (Supervisor.escalate H pid hung.supervisor.config reaped >>= fun tier => do
    Activity.atOnce (announce (({ kind := .serverStopped } : Event).withTier tier))
    pure (Except.ok tier)) hung = _
  rw [alone_bind, escalate_of_stopped H hlife]
  simp only [alone_bind, alone_announce, alone_pure]
  rw [signed_of_some rfl]
  simp only [hung, Event.stopping, List.append_assoc, List.cons_append]
  rfl

theorem stop_move (s : Scene η σ) : Move s ((stop H).alone H s).2 := by
  cases hlife : s.supervisor.life with
  | notStarted | stopped =>
    rw [stop_of_closed H (by rw [hlife]; rfl)]
    exact .of_same rfl rfl rfl rfl rfl
  | started pid line channel reaped =>
    rw [stop_of_started H hlife]
    exact .stops hlife ⟨rfl, rfl, rfl, rfl, rfl⟩

/-- **What an operation can do.** -/
theorem perform_move (op : Operation η) (s : Scene η σ) : Move s (op.perform H s) := by
  cases op with
  | start => exact start_move H s
  | stop => exact stop_move H s
  | isRunning => exact isRunning_move H s
  | request m => exact request_move H m s
  | useChannel use => exact useChannel_move H use s
  | touch => exact .of_same rfl rfl rfl rfl rfl

/-- Nothing is announced when a supervisor is dropped. -/
theorem drop_events (s : Scene η σ) : (drop H s).2.events = s.events := by
  rw [drop, bind_run, get_run]
  cases s.supervisor.life with
  | notStarted => rfl
  | started pid line channel reaped | stopped pid reaped => cases reaped <;> rfl

end Supervisor

end Overseer
