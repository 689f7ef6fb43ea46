import Overseer.Proofs.Supervisor.Fields

/-!
# The stages of a supervisor, whatever is done with it

A supervisor is used in any way: it is started and stopped, looked at, talked to, and its server may
serve a peer in the parent process too (`Use`). In every state that it comes to its fields fit each
other (`Fields.Coherent`). What is done once moves it on by one phase at most (`Fields.Steps`), so
over any run it never goes back, and keeps the number of its child and the knowledge that the child
is gone (`Fields.Onward`). What is asked for at the wrong time is refused and changes no field
(`stages_of_uses`).
-/

namespace Overseer

/-! ## Fields in order -/

/-- Phases by their number. -/
def Phase.rank : Phase → Nat
  | notStarted => 0
  | started => 1
  | stopped => 2

namespace Fields

/-- The fields fit each other. -/
structure Coherent (f : Fields) : Prop where
  notStarted : f.phase = .notStarted → f.pid = none ∧ f.channel = none ∧ f.reaped = false
  started : f.phase = .started → f.pid.isSome ∧ f.channel.isSome
  stopped : f.phase = .stopped → f.pid.isSome ∧ f.channel = none

/-- Later fields: no phase comes back, and nothing is forgotten of the child. -/
structure Onward (f f' : Fields) : Prop where
  rank_le : f.phase.rank ≤ f'.phase.rank
  pid : ∀ pid, f.pid = some pid → f'.pid = some pid
  reaped : f.reaped = true → f'.reaped = true

/-- The fields after something was done once. -/
structure Steps (f f' : Fields) : Prop extends Onward f f' where
  rank_le_succ : f'.phase.rank ≤ f.phase.rank + 1

variable {f f' f'' : Fields}

theorem Onward.refl (f : Fields) : Onward f f := ⟨Nat.le_refl _, fun _ h => h, id⟩

theorem Onward.trans (h : Onward f f') (h' : Onward f' f'') : Onward f f'' :=
  ⟨Nat.le_trans h.rank_le h'.rank_le, fun pid hpid => h'.pid pid (h.pid pid hpid),
    fun hreaped => h'.reaped (h.reaped hreaped)⟩

theorem Steps.refl (f : Fields) : Steps f f := ⟨.refl f, Nat.le_succ _⟩

end Fields

namespace Life

/-- **The fields of a stage fit each other.** -/
theorem coherent (life : Life) : life.fields.Coherent := by
  cases life with
  | notStarted => exact ⟨fun _ => ⟨rfl, rfl, rfl⟩, nofun, nofun⟩
  | started => exact ⟨nofun, fun _ => ⟨rfl, rfl⟩, nofun⟩
  | stopped => exact ⟨nofun, nofun, fun _ => ⟨rfl, rfl⟩⟩

theorem phase_eq_started {life : Life} : life.fields.phase = .started ↔ life.isStarted = true := by
  cases life with
  | started => exact iff_of_true rfl rfl
  | notStarted | stopped => exact iff_of_false nofun nofun

theorem phase_eq_notStarted {life : Life} :
    life.fields.phase = .notStarted ↔ life = .notStarted := by
  cases life with
  | notStarted => exact iff_of_true rfl rfl
  | started | stopped => exact iff_of_false nofun nofun

theorem channel_eq_none {life : Life} : life.fields.channel = none ↔ life.isStarted = false := by
  cases life with
  | started => exact iff_of_false nofun nofun
  | notStarted | stopped => exact iff_of_true rfl rfl

end Life

/-- What becomes of a stage when something is done once. -/
inductive Life.Step : Life → Life → Prop where
  | same (life : Life) : Step life life
  /-- The child is forked. -/
  | born (pid : Pid) (line : Line) (channel : Channel) :
    Step .notStarted (.started pid line channel false)
  /-- The channel is used. -/
  | used (pid : Pid) (line : Line) (channel channel' : Channel) (reaped : Bool) :
    Step (.started pid line channel reaped) (.started pid line channel' reaped)
  /-- The child is seen to be gone. -/
  | reaped (life : Life) : Step life life.reap
  /-- The channel is closed, and the child is perhaps seen to be gone. -/
  | stopped (pid : Pid) (line : Line) (channel : Channel) (reaped reaped' : Bool)
      (h : reaped = true → reaped' = true) :
    Step (.started pid line channel reaped) (.stopped pid reaped')

/-- **One step passes one phase at most** and forgets nothing. -/
theorem Life.Step.steps {life life' : Life} (h : Step life life') :
    life.fields.Steps life'.fields := by
  cases h with
  | same => exact .refl _
  | born => exact ⟨⟨Nat.zero_le 1, nofun, nofun⟩, Nat.le_refl 1⟩
  | used => exact ⟨⟨Nat.le_refl 1, fun _ h => h, id⟩, Nat.le_succ 1⟩
  | reaped =>
    cases life with
    | notStarted => exact .refl _
    | started => exact ⟨⟨Nat.le_refl 1, fun _ h => h, fun _ => rfl⟩, Nat.le_succ 1⟩
    | stopped => exact ⟨⟨Nat.le_refl 2, fun _ h => h, fun _ => rfl⟩, Nat.le_succ 2⟩
  | stopped _ _ _ _ _ h => exact ⟨⟨Nat.le_succ 1, fun _ h => h, h⟩, Nat.le_refl 2⟩

/-! ## Uses -/

/-- What is done with a supervisor. -/
inductive Use (η : Type) where
  | operate (op : Supervisor.Operation η)
  /-- The server serves a peer in a process like the parent. -/
  | runInProcess (process : Process)

namespace Supervisor

variable {η σ : Type} (H : Host η)

/-- Serves a peer in the parent process. The parent's copy of the server is what is left of it. -/
def runInProcess (process : Process) : Act η σ (Except Halt LoopExit) := fun s =>
  match Loop.runInProcess s.supervisor.server s.supervisor.config s.supervisor.state process with
  | .ok exit w => (.ok exit, { s with supervisor := { s.supervisor with state := w.server } })
  | .error halt w => (.error halt, { s with supervisor := { s.supervisor with state := w.server } })

/-- The scene after something was done with the supervisor. -/
def perform : Use η → Scene η σ → Scene η σ
  | .operate op, s => op.perform H s
  | .runInProcess process, s => (runInProcess process s).2

/-- The scene after some uses of the supervisor. -/
def performEach (uses : List (Use η)) (s : Scene η σ) : Scene η σ :=
  uses.foldl (fun s use => perform H use s) s

end Supervisor

namespace Fielded

variable {η σ : Type} (H : Host η)

/-- The fields after something was done with the supervisor. -/
def perform : Use η → Fielded η σ → Fielded η σ
  | .operate .start, s => (start H s).2
  | .operate .stop, s => (stop H s).2
  | .operate .isRunning, s => (isRunning H s).2
  | .operate (.request m), s => (request H m s).2
  | .operate (.useChannel use), s => (onChannel H (fun T c h => ((), use T c h)) s).2
  | .operate .touch, s => (touch H s).2
  | .runInProcess process, s => (runInProcess process s).2

/-- The fields after some uses of the supervisor. -/
def performEach (uses : List (Use η)) (s : Fielded η σ) : Fielded η σ :=
  uses.foldl (fun s use => perform H use s) s

theorem mirrors_runInProcess (process : Process) (s : Scene η σ) :
    Mirrors (runInProcess process) (Supervisor.runInProcess process) s := by
  rw [Mirrors, runInProcess, Supervisor.runInProcess]
  show (match Loop.runInProcess s.supervisor.server s.supervisor.config s.supervisor.state process
    with | .ok exit w => _ | .error halt w => _) = _
  cases Loop.runInProcess s.supervisor.server s.supervisor.config s.supervisor.state process <;> rfl

/-- **The fields are those of the stage of life**, whatever is done. -/
theorem perform_of (use : Use η) (s : Scene η σ) :
    perform H use (of s) = of (Supervisor.perform H use s) := by
  cases use with
  | operate op =>
    cases op with
    | start => exact congrArg Prod.snd (mirrors_start H s)
    | stop => exact congrArg Prod.snd (mirrors_stop H s)
    | isRunning => exact congrArg Prod.snd (mirrors_isRunning H s)
    | request m => exact congrArg Prod.snd (mirrors_request H m s)
    | useChannel use => exact congrArg Prod.snd (mirrors_onChannel H _ s)
    | touch => rfl
  | runInProcess process => exact congrArg Prod.snd (mirrors_runInProcess process s)

theorem performEach_of (uses : List (Use η)) (s : Scene η σ) :
    performEach H uses (of s) = of (Supervisor.performEach H uses s) := by
  induction uses generalizing s with
  | nil => rfl
  | cons use uses ih =>
    show performEach H uses (perform H use (of s)) = _
    rw [perform_of]
    exact ih _

end Fielded

namespace Supervisor

variable {η σ : Type} (H : Host η) {s s' : Scene η σ}

/-! ## What is done once -/

theorem start_step (s : Scene η σ) :
    Life.Step s.supervisor.life (start H s).2.supervisor.life := by
  by_cases hlife : s.supervisor.life = .notStarted
  · cases start_move H s with
    | rests h | fails _ h =>
      rw [h.life_eq, hlife]
      exact .same _
    | starts _ h =>
      rw [h.life_eq, hlife]
      exact .born ..
    | talks h | misses h | notices h | settles h | stops h =>
      rw [hlife] at h
      cases h
  · rw [start_of_born H hlife]
    exact .same _

theorem isRunning_step (s : Scene η σ) :
    Life.Step s.supervisor.life (isRunning H s).2.supervisor.life := by
  by_cases hknown : s.supervisor.life.pid? = none ∨ s.supervisor.life.reaped = true
  · rw [isRunning_of_reaped H hknown]
    exact .same _
  · rw [not_or, Bool.not_eq_true] at hknown
    obtain ⟨hpid, hreaped⟩ := hknown
    obtain ⟨pid, hpid⟩ := Option.ne_none_iff_exists'.1 hpid
    rw [isRunning_of_unreaped H hpid hreaped]
    split
    · exact .reaped _
    · exact .same _

theorem onChannel_step {α : Type} (f : Transport η → Channel → η → α × Channel × η)
    (s : Scene η σ) : Life.Step s.supervisor.life (onChannel H f s).2.supervisor.life := by
  cases hlife : s.supervisor.life with
  | notStarted | stopped =>
    rw [onChannel_of_closed H f (by rw [hlife]; rfl), hlife]
    exact .same _
  | started pid line channel reaped =>
    obtain ⟨channel', host, hrun⟩ := onChannel_of_started H f hlife
    rw [hrun]
    exact .used ..

/-- A request changes no more of a stage than the use of the channel does. -/
theorem request_life (m : Message) (s : Scene η σ) :
    (request H m s).2.supervisor.life =
      (onChannel H (ask m) (touch H s).2).2.supervisor.life := by
  rw [request, bind_run, bind_run, get_run, bind_run]
  generalize onChannel H (ask m) (touch H s).2 = out
  obtain ⟨answer, s'⟩ := out
  cases answer with
  | error e => rfl
  | ok reply =>
    cases reply with
    | item | ended | waiting => rfl
    | failed e => cases e <;> rfl

theorem request_step (m : Message) (s : Scene η σ) :
    Life.Step s.supervisor.life (request H m s).2.supervisor.life := by
  rw [request_life]
  exact onChannel_step H (ask m) (touch H s).2

/-- What was known of the child is still known when its server was stopped. -/
theorem stop_step (s : Scene η σ) :
    Life.Step s.supervisor.life ((stop H).alone H s).2.supervisor.life := by
  cases hlife : s.supervisor.life with
  | notStarted | stopped =>
    rw [stop_of_closed H (by rw [hlife]; rfl), hlife]
    exact .same _
  | started pid line channel reaped =>
    rw [stop_of_started H hlife]
    refine .stopped pid line channel reaped _ fun h => ?_
    rw [h]
    rfl

/-- **What becomes of a stage**, whatever is done once. -/
theorem perform_step (use : Use η) (s : Scene η σ) :
    Life.Step s.supervisor.life (perform H use s).supervisor.life := by
  cases use with
  | operate op =>
    cases op with
    | start => exact start_step H s
    | stop => exact stop_step H s
    | isRunning => exact isRunning_step H s
    | request m => exact request_step H m s
    | useChannel use => exact onChannel_step H _ s
    | touch => exact .same _
  | runInProcess process =>
    rw [perform, runInProcess]
    cases Loop.runInProcess s.supervisor.server s.supervisor.config s.supervisor.state process with
    | ok => exact .same _
    | error => exact .same _

/-- **A run never goes back** and forgets nothing. -/
theorem performEach_onward (uses : List (Use η)) (s : Scene η σ) :
    s.supervisor.life.fields.Onward (performEach H uses s).supervisor.life.fields := by
  induction uses generalizing s with
  | nil => exact .refl _
  | cons use uses ih => exact (perform_step H use s).steps.toOnward.trans (ih _)

/-! ## What is refused -/

/-- What the first start that is not refused answers: what the line, the hook before the fork and
the fork let it. -/
def startAnswer (s : Scene η σ) : Except SupervisorError Unit :=
  match H.openLine s.host with
  | (.error e, _) => .error (.spawn e)
  | (.ok line, host) =>
    match s.supervisor.server.beforeFork {} s.supervisor.state with
    | (.error e, _) => .error e
    | (.ok keep, state) =>
      match H.fork line (Child.program s.supervisor.server s.supervisor.config keep state) host with
      | (.error errno, _) => .error (.spawn (.os errno))
      | (.ok _, _) => .ok ()

/-- **A server that was never started** is started unless something fails, and a start that fails
leaves it to be started again. -/
theorem start_of_notStarted {s : Scene η σ} (h : s.supervisor.life = .notStarted) :
    (start H s).1 = startAnswer H s ∧
      ∀ e, (start H s).1 = .error e → (start H s).2.supervisor.life = .notStarted := by
  rw [start, bind_run, get_run, h, startAnswer]
  simp only [bind_run, announce_run, onHost_run]
  generalize H.openLine s.host = answer
  obtain ⟨line, host⟩ := answer
  cases line with
  | error e => exact ⟨rfl, fun _ _ => h⟩
  | ok line =>
    simp only [bind_run, prepareFork_run]
    generalize s.supervisor.server.beforeFork {} s.supervisor.state = answer
    obtain ⟨keep, state⟩ := answer
    cases keep with
    | error e => exact ⟨rfl, fun _ _ => h⟩
    | ok keep =>
      simp only [forkOn, bind_run, get_run, onHost_run]
      generalize H.fork line _ host = answer
      obtain ⟨pid, host⟩ := answer
      cases pid with
      | error errno => exact ⟨rfl, fun _ _ => h⟩
      | ok pid => exact ⟨rfl, fun _ he => by cases he⟩

/-- What is refused for its time, and what is not. -/
structure Timely (s : Scene η σ) : Prop where
  /-- A server that was started is not started again. -/
  start_refused : s.supervisor.life.fields.phase ≠ .notStarted →
    start H s = (.error .alreadyStarted, s)
  /-- One that was not is started, unless the line, the hook or the fork fails. -/
  start_answers : s.supervisor.life.fields.phase = .notStarted → (start H s).1 = startAnswer H s
  /-- A start that succeeds leads on. -/
  start_succeeds : (start H s).1 = .ok () →
    s.supervisor.life.fields.phase = .notStarted ∧
      (start H s).2.supervisor.life.fields.phase = .started
  /-- A start that fails, for whatever reason, changes no field. -/
  start_fails : ∀ e, (start H s).1 = .error e →
    (start H s).2.supervisor.life.fields = s.supervisor.life.fields
  /-- A server that does not run is not stopped. -/
  stop_refused : s.supervisor.life.fields.phase ≠ .started →
    (stop H).alone H s = (.error .notStarted, s)
  /-- One that runs is. -/
  stop_succeeds : s.supervisor.life.fields.phase = .started →
    (∃ tier, ((stop H).alone H s).1 = .ok tier) ∧
      ((stop H).alone H s).2.supervisor.life.fields.phase = .stopped
  /-- A channel that is not there is not used. -/
  channel_refused : s.supervisor.life.fields.channel = none →
    ∀ {α : Type} (f : Transport η → Channel → η → α × Channel × η),
      onChannel H f s = (.error .notStarted, s)
  /-- Nor is anything requested over it. That only counts as a use. -/
  request_refused : s.supervisor.life.fields.channel = none →
    ∀ m, request H m s = (.error .notStarted, (touch H s).2)

theorem timely (s : Scene η σ) : Timely H s where
  start_refused h := start_of_born H fun hlife => h (Life.phase_eq_notStarted.2 hlife)
  start_answers h := (start_of_notStarted H (Life.phase_eq_notStarted.1 h)).1
  start_succeeds h := by
    refine ⟨?_, Life.phase_eq_started.2 (start_ok H h)⟩
    by_cases hlife : s.supervisor.life = .notStarted
    · exact Life.phase_eq_notStarted.2 hlife
    · rw [start_of_born H hlife] at h
      cases h
  start_fails e h := by
    by_cases hlife : s.supervisor.life = .notStarted
    · rw [(start_of_notStarted H hlife).2 e h, hlife]
    · rw [start_of_born H hlife]
  stop_refused h := stop_of_closed H (by
    rw [← Bool.not_eq_true]
    exact fun hstarted => h (Life.phase_eq_started.2 hstarted))
  stop_succeeds h := by
    cases hlife : s.supervisor.life with
    | notStarted | stopped =>
      rw [hlife] at h
      cases h
    | started pid line channel reaped =>
      rw [stop_of_started H hlife]
      exact ⟨⟨_, rfl⟩, rfl⟩
  channel_refused h _ f := onChannel_of_closed H f (Life.channel_eq_none.1 h)
  request_refused h m := by
    have hclosed := onChannel_of_closed H (ask m) (s := (touch H s).2) (Life.channel_eq_none.1 h)
    rw [request, bind_run, bind_run, get_run, bind_run]
    simp only [hclosed]
    rfl

/-- **The stages of a supervisor.** Whatever is done with it, its fields fit each other, and a
supervisor that sets them one by one comes to the same ones. Nothing that is done once passes more
than one phase; nothing at all goes back to an earlier one, changes the child's number or forgets
that the child is gone. What is asked for at the wrong time is refused and changes no field, and a
server whose start failed can be started still. -/
theorem stages_of_uses (server : Server σ) (state : σ) (config : Config) (now : Instant) (host : η)
    (uses : List (Use η)) :
    let s := performEach H uses { supervisor := .ofServer server state config now, host }
    let fields := s.supervisor.life.fields
    Fielded.performEach H uses
      { server, state, config, name := server.name state, lastActivity := now, host } = .of s ∧
    fields.Coherent ∧
    (s.supervisor.isStarted = true ↔ fields.phase = .started) ∧
    (∀ use, fields.Steps (perform H use s).supervisor.life.fields) ∧
    (∀ more, fields.Onward (performEach H more s).supervisor.life.fields) ∧
    Timely H s := by
  intro s fields
  have hfields :=
    Fielded.performEach_of H uses { supervisor := .ofServer server state config now, host }
  exact ⟨hfields, s.supervisor.life.coherent, Life.phase_eq_started.symm,
    fun use => (perform_step H use s).steps, fun more => performEach_onward H more s, timely H s⟩

end Supervisor

end Overseer
