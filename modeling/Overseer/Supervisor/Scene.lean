import Overseer.Activity
import Overseer.Config
import Overseer.Event.Basic
import Overseer.Server.Basic
import Overseer.Supervisor.Host

/-!
# Supervisors and what they work on

A `Supervisor` owns one server: it forks a child for it, talks to the child over a channel and
stops it. It is started at most once and stopped at most once; what it has at each stage of its
life (`Life`) is all there is, so a supervisor that is not started has no child and one that is
stopped has no channel.

What a supervisor does, it does on a `Scene`: the supervisor, its host and what has been announced.
Most of it is done at once, though the parent process may be kept waiting by it (`Act`). Stopping a
child takes time, which others may use (`LongAct`).
-/

namespace Overseer

/-- The stages of a supervisor's life. -/
inductive Life where
  | notStarted
  /-- The child was forked and its channel is open. `reaped` says whether it was seen to be gone. -/
  | started (pid : Pid) (line : Line) (channel : Channel) (reaped : Bool)
  /-- The channel is closed. -/
  | stopped (pid : Pid) (reaped : Bool)
  deriving DecidableEq, Inhabited

/-- The owner of one server. -/
structure Supervisor (σ : Type) where
  /-- What the server does. -/
  server : Server σ
  /-- The parent's copy of the server's state. -/
  state : σ
  config : Config
  /-- The name in events. -/
  name : String
  life : Life := .notStarted
  /-- When the server was last used. -/
  lastActivity : Instant

namespace Life

/-- The written form of a stage. -/
def describe : Life → String
  | notStarted => "NotStarted"
  | started .. => "Started"
  | stopped .. => "Stopped"

/-- The child, once there is one. -/
def pid? : Life → Option Pid
  | notStarted => none
  | started pid .. => some pid
  | stopped pid _ => some pid

/-- Whether the child was seen to be gone. -/
def reaped : Life → Bool
  | notStarted => false
  | started _ _ _ reaped => reaped
  | stopped _ reaped => reaped

/-- Whether the channel to the child is open. -/
def isStarted : Life → Bool
  | started .. => true
  | _ => false

/-- Takes note that the child was seen to be gone. -/
def reap : Life → Life
  | notStarted => notStarted
  | started pid line channel _ => started pid line channel true
  | stopped pid _ => stopped pid true

end Life

/-- A supervisor with its host and what it has announced. -/
structure Scene (η σ : Type) where
  supervisor : Supervisor σ
  host : η
  /-- The announced events, oldest first. -/
  events : List Event := []

/-- What a supervisor does at once, with its answer. -/
abbrev Act (η σ α : Type) := StateM (Scene η σ) α

/-- What a supervisor does over some time, with its answer. It waits for spans to pass. -/
abbrev LongAct (η σ α : Type) := Activity (Scene η σ) Duration α

namespace Supervisor

variable {σ : Type}

/-- The supervisor of a server that is not started. -/
def ofServer (server : Server σ) (state : σ) (config : Config) (now : Instant) : Supervisor σ :=
  { server, state, config, name := server.name state, lastActivity := now }

/-- Whether the channel to the child is open. -/
def isStarted (s : Supervisor σ) : Bool := s.life.isStarted

/-- When the server becomes idle, if it ever does. It panics if the clock cannot show that time. -/
def idleDeadline (s : Supervisor σ) : Except Panic (Option Instant) :=
  match s.config.idleLimit? with
  | none => .ok none
  | some limit => (s.lastActivity.plus limit).map some

/-- An event of this supervisor, with its name and its child. -/
def signed (s : Supervisor σ) (e : Event) : Event :=
  let e := e.withServer s.name
  match s.life.pid? with
  | some pid => e.withPid pid
  | none => e

/-- The written form of a supervisor, for a given way to write the child's number. -/
def describe (s : Supervisor σ) (showPid : Pid → String) : String :=
  Text.struct "Supervisor"
    [("name", Text.quoted s.name), ("state", s.life.describe),
      ("pid", Text.option (s.life.pid?.map fun pid => "Pid(" ++ showPid pid ++ ")"))] true

end Supervisor

namespace Act

variable {η σ α : Type}

/-- Announces an event. -/
def announce (e : Event) : Act η σ Unit :=
  modify fun s => { s with events := s.events ++ [s.supervisor.signed e] }

/-- Changes the supervisor. -/
def change (f : Supervisor σ → Supervisor σ) : Act η σ Unit :=
  modify fun s => { s with supervisor := f s.supervisor }

/-- Goes on to another stage of life. -/
def enter (life : Life) : Act η σ Unit := change fun s => { s with life }

/-- Has the host do something. -/
def onHost (f : η → α × η) : Act η σ α :=
  modifyGet fun s => let (a, host) := f s.host; (a, { s with host })

end Act

/-- Does something that takes time while nothing else goes on. -/
def LongAct.alone {η σ α : Type} (H : Host η) (act : LongAct η σ α) : Act η σ α :=
  act.run fun span x => { x with host := H.sleep span x.host }

end Overseer
