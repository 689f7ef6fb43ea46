import Overseer.Proofs.Supervisor.Operation

/-!
# What is announced of a server

Events come from several operations and from the escalation, and operations may be used in any
order, also where they are out of place. What has been announced at a stage of a supervisor's life
is one of few words all the same (`Lifecycle`): each `Move` leads from word to word, so every
sequence of operations does (`lifecycle_of_operations`). Whose event it is, which child it is about
and what the tier in the end says of the signals before it are read off the words.
-/

namespace Overseer

open Escalation

/-- What is announced of a server until it is stopped: it could not be started so many times, then
it was, and the child went away by itself for these reasons. -/
def Event.running (name : String) (pid : Pid) (attempts : Nat) (reasons : List String) :
    List Event :=
  List.replicate attempts (.starting name) ++
    .starting name :: .started name pid :: reasons.map (.exited name pid)

/-- The words of events that a supervisor of a server announces, by the stage of its life. -/
inductive Lifecycle (name : String) (config : Config) : Life → List Event → Prop
  /-- A server that never came up was tried to be started some times. -/
  | notStarted (attempts : Nat) :
      Lifecycle name config .notStarted (List.replicate attempts (.starting name))
  | started {pid : Pid} {line : Line} {channel : Channel} {reaped : Bool} (attempts : Nat)
      (reasons : List String) :
      Lifecycle name config (.started pid line channel reaped)
        (Event.running name pid attempts reasons)
  /-- Nothing follows the end of a server, and its end goes as far as the escalation did. -/
  | stopped {pid : Pid} {reaped : Bool} (attempts : Nat) (reasons : List String)
      (ladder : Ladder) :
      Lifecycle name config (.stopped pid reaped)
        (Event.running name pid attempts reasons ++ Event.stopping name pid config ladder)

/-- Whether an event of some kind was announced. -/
def Announced (kind : EventKind) (events : List Event) : Prop := ∃ e ∈ events, e.kind = kind

/-- A tier is the one that the announced signals speak of. -/
structure StopTier.Told (tier : StopTier) (events : List Event) : Prop where
  closed_iff : tier = .closed ↔ ¬ Announced .terminationSent events
  terminated_iff :
    tier = .terminated ↔ Announced .terminationSent events ∧ ¬ Announced .killSent events
  killed_iff : tier = .killed ↔ Announced .killSent events

/-- It was announced that a killed child is still there: that it was killed, with a reason. -/
def Survived (events : List Event) : Prop :=
  ∃ e ∈ events, e.kind = .killSent ∧ e.reason ≠ none

namespace Lifecycle

open Supervisor

variable {name : String} {config : Config} {life : Life} {events : List Event}

/-! ## Reading the words -/

theorem exists_of_notStarted (h : Lifecycle name config .notStarted events) :
    ∃ attempts, events = List.replicate attempts (.starting name) := by
  cases h with
  | notStarted attempts => exact ⟨attempts, rfl⟩

theorem exists_of_started {pid : Pid} {line : Line} {channel : Channel} {reaped : Bool}
    (h : Lifecycle name config (.started pid line channel reaped) events) :
    ∃ attempts reasons, events = Event.running name pid attempts reasons := by
  cases h with
  | started attempts reasons => exact ⟨attempts, reasons, rfl⟩

theorem exists_of_stopped {pid : Pid} {reaped : Bool}
    (h : Lifecycle name config (.stopped pid reaped) events) :
    ∃ attempts reasons ladder, events =
      Event.running name pid attempts reasons ++ Event.stopping name pid config ladder := by
  cases h with
  | stopped attempts reasons ladder => exact ⟨attempts, reasons, ladder, rfl⟩

/-- One more time the child went away by itself. -/
theorem running_snoc (pid : Pid) (attempts : Nat) (reasons : List String) (reason : String) :
    Event.running name pid attempts reasons ++ [.exited name pid reason] =
      Event.running name pid attempts (reasons ++ [reason]) := by
  simp [Event.running]

/-- What holds of each of its events holds of all that is announced until a server is stopped. -/
theorem forall_running {P : Event → Prop} {pid : Pid} (attempts : Nat) (reasons : List String)
    (hstarting : P (.starting name)) (hstarted : P (.started name pid))
    (hexited : ∀ reason, P (.exited name pid reason)) :
    ∀ e ∈ Event.running name pid attempts reasons, P e := by
  intro e he
  obtain he | he := List.mem_append.1 he
  · rwa [List.eq_of_mem_replicate he]
  · obtain rfl | he := List.mem_cons.1 he
    · exact hstarting
    · obtain rfl | he := List.mem_cons.1 he
      · exact hstarted
      · obtain ⟨reason, -, rfl⟩ := List.mem_map.1 he
        exact hexited reason

/-- The same of all that is announced when it is. -/
theorem forall_stopping {P : Event → Prop} {pid : Pid} (ladder : Ladder)
    (hrequested : P (.stopRequested name pid config))
    (hsteps : ∀ step ∈ ladder.steps config, P (step.ofChild name pid))
    (hstopped : P (.stopped name pid ladder.outcome.tier)) :
    ∀ e ∈ Event.stopping name pid config ladder, P e := by
  intro e he
  obtain he | he := List.mem_append.1 he
  · obtain rfl | he := List.mem_cons.1 he
    · exact hrequested
    · obtain ⟨step, hstep, rfl⟩ := List.mem_map.1 he
      exact hsteps step hstep
  · rwa [List.mem_singleton.1 he]

/-- Every event has the server's name. -/
theorem server_eq (h : Lifecycle name config life events) :
    ∀ e ∈ events, e.server = some name := by
  cases h with
  | notStarted attempts =>
    intro e he
    rw [List.eq_of_mem_replicate he]
    rfl
  | started attempts reasons => exact forall_running attempts reasons rfl rfl fun _ => rfl
  | stopped attempts reasons ladder =>
    exact List.forall_mem_append.2
      ⟨forall_running attempts reasons rfl rfl fun _ => rfl,
        forall_stopping ladder rfl (fun _ _ => rfl) rfl⟩

/-- Every word is cut where the server runs: what comes before has no child, what comes from there
on has the child of the supervisor. -/
theorem cut (h : Lifecycle name config life events) :
    ∃ attempts since, events = List.replicate attempts (.starting name) ++ since ∧
      (∀ e ∈ since, e.pid.isSome ∧ e.pid = life.pid?) ∧
        ∀ e ∈ since.head?, e.kind = .serverStarted := by
  have hcut (pid : Pid) (attempts : Nat) (reasons : List String) :
      Event.running name pid attempts reasons =
        List.replicate (attempts + 1) (.starting name) ++
          .started name pid :: reasons.map (.exited name pid) := by
    simp [Event.running, List.replicate_succ']
  have hexited {pid : Pid} (reasons : List String) :
      ∀ e ∈ reasons.map (Event.exited name pid), e.pid.isSome ∧ e.pid = some pid := by
    simp [Event.exited]
  cases h with
  | notStarted attempts => exact ⟨attempts, [], by simp⟩
  | @started pid line channel reaped attempts reasons =>
    refine ⟨attempts + 1, _, hcut pid attempts reasons, ?_, fun e he => ?_⟩
    · exact List.forall_mem_cons.2 ⟨⟨rfl, rfl⟩, hexited reasons⟩
    · rw [← Option.mem_some.1 he]
      rfl
  | @stopped pid reaped attempts reasons ladder =>
    refine ⟨attempts + 1, .started name pid :: reasons.map (.exited name pid) ++
      Event.stopping name pid config ladder, ?_, ?_, fun e he => ?_⟩
    · rw [hcut, List.append_assoc]
    · exact List.forall_mem_append.2
        ⟨List.forall_mem_cons.2 ⟨⟨rfl, rfl⟩, hexited reasons⟩,
          forall_stopping ladder ⟨rfl, rfl⟩ (fun _ _ => ⟨rfl, rfl⟩) ⟨rfl, rfl⟩⟩
    · rw [← Option.mem_some.1 he]
      rfl

/-- **An event has the child's number exactly if the server runs by then.** -/
theorem pid_eq (h : Lifecycle name config life events) :
    (∀ e ∈ events.takeWhile (·.kind ≠ .serverStarted), e.pid = none) ∧
      ∀ e ∈ events.dropWhile (·.kind ≠ .serverStarted), e.pid.isSome ∧ e.pid = life.pid? := by
  obtain ⟨attempts, since, rfl, hsince, hhead⟩ := h.cut
  have hbefore : ∀ e ∈ List.replicate attempts (Event.starting name),
      decide (e.kind ≠ .serverStarted) = true := by
    intro e he
    rw [List.eq_of_mem_replicate he]
    rfl
  have hcut : since.takeWhile (·.kind ≠ .serverStarted) = [] ∧
      since.dropWhile (·.kind ≠ .serverStarted) = since := by
    cases since with
    | nil => exact ⟨rfl, rfl⟩
    | cons e since => simp [hhead e rfl]
  rw [List.takeWhile_append_of_pos hbefore, List.dropWhile_append_of_pos hbefore, hcut.1, hcut.2,
    List.append_nil]
  refine ⟨fun e he => ?_, hsince⟩
  rw [List.eq_of_mem_replicate he]
  rfl

/-! ## What the signals say -/

/-- What neither a running server announces nor either end of stopping one is announced exactly if
it is a step of the escalation. -/
theorem exists_signal_iff (P : Event → Prop)
    (hP : ∀ e, P e → e.kind = .terminationSent ∨ e.kind = .killSent) (pid : Pid) (attempts : Nat)
    (reasons : List String) (ladder : Ladder) :
    (∃ e ∈ Event.running name pid attempts reasons ++ Event.stopping name pid config ladder, P e) ↔
      ∃ step ∈ ladder.steps config, P (step.ofChild name pid) := by
  have hnot {e : Event} (hterm : e.kind ≠ .terminationSent) (hkill : e.kind ≠ .killSent) : ¬ P e :=
    fun he => (hP e he).elim hterm hkill
  have hrunning : ∀ e ∈ Event.running name pid attempts reasons, ¬ P e :=
    forall_running attempts reasons (hnot nofun nofun) (hnot nofun nofun) fun _ => hnot nofun nofun
  have hstopping : ∀ e ∈ Event.stopping name pid config ladder,
      P e → ∃ step ∈ ladder.steps config, P (step.ofChild name pid) :=
    forall_stopping ladder (fun h => absurd h (hnot nofun nofun))
      (fun step hstep h => ⟨step, hstep, h⟩) (fun h => absurd h (hnot nofun nofun))
  constructor
  · rintro ⟨e, he, h⟩
    obtain he | he := List.mem_append.1 he
    · exact absurd h (hrunning e he)
    · exact hstopping e he h
  · rintro ⟨step, hstep, h⟩
    have hmem : step.ofChild name pid ∈ Event.stopping name pid config ladder :=
      List.mem_append_left _ (List.mem_cons_of_mem _ (List.mem_map_of_mem hstep))
    exact ⟨_, List.mem_append_right _ hmem, h⟩

/-- **The tier is the one that the announced signals speak of.** -/
theorem told (pid : Pid) (attempts : Nat) (reasons : List String) (ladder : Ladder) :
    ladder.outcome.tier.Told
      (Event.running name pid attempts reasons ++ Event.stopping name pid config ladder) := by
  have hterm : Announced .terminationSent
      (Event.running name pid attempts reasons ++ Event.stopping name pid config ladder) ↔
        ladder ≠ .closed := by
    refine (exists_signal_iff (·.kind = .terminationSent) (fun _ => .inl) ..).trans ?_
    cases ladder <;> simp [Ladder.steps, Ladder.terminationSent]
  have hkill : Announced .killSent
      (Event.running name pid attempts reasons ++ Event.stopping name pid config ladder) ↔
        ladder = .killed ∨ ladder = .survived := by
    refine (exists_signal_iff (·.kind = .killSent) (fun _ => .inr) ..).trans ?_
    cases ladder <;> simp [Ladder.steps, Ladder.terminationSent, Ladder.killSent]
  refine ⟨?_, ?_, ?_⟩
  · rw [hterm]
    cases ladder <;> simp [Ladder.outcome]
  · rw [hterm, hkill]
    cases ladder <;> simp [Ladder.outcome]
  · rw [hkill]
    cases ladder <;> simp [Ladder.outcome]

/-- It is announced that a killed child is still there exactly if it survived. -/
theorem survived_iff (pid : Pid) (attempts : Nat) (reasons : List String) (ladder : Ladder) :
    Survived (Event.running name pid attempts reasons ++ Event.stopping name pid config ladder) ↔
      ladder = .survived := by
  refine (exists_signal_iff (fun e => e.kind = .killSent ∧ e.reason ≠ none)
    (fun _ h => .inr h.1) ..).trans ?_
  cases ladder <;> simp [Ladder.steps, Ladder.terminationSent, Ladder.killSent, Ladder.notReaped]

/-- The end of a server has a tier, the one that the announced signals speak of. -/
theorem tier_told (h : Lifecycle name config life events) :
    ∀ e ∈ events, e.kind = .serverStopped → ∃ tier, e.tier = some tier ∧ tier.Told events := by
  have hrunning {P : Event → Prop} {pid : Pid} (attempts : Nat) (reasons : List String) :
      ∀ e ∈ Event.running name pid attempts reasons, e.kind = .serverStopped → P e :=
    forall_running attempts reasons nofun nofun nofun
  cases h with
  | notStarted attempts =>
    intro e he hkind
    rw [List.eq_of_mem_replicate he] at hkind
    cases hkind
  | started attempts reasons => exact hrunning attempts reasons
  | stopped attempts reasons ladder =>
    refine List.forall_mem_append.2 ⟨hrunning attempts reasons, forall_stopping ladder nofun ?_ ?_⟩
    · intro step hstep hkind
      cases ladder <;>
        simp [Ladder.steps, Ladder.terminationSent, Ladder.killSent, Ladder.notReaped] at hstep
      all_goals
        rcases hstep with rfl | rfl | rfl <;> cases hkind
    · exact fun _ => ⟨_, rfl, told ..⟩

/-! ## Operations keep to the words -/

variable {η σ : Type} {s s' : Scene η σ}

theorem of_follows {news : List Event} (hf : Follows s s' life news)
    (h : Lifecycle s.supervisor.name s.supervisor.config life (s.events ++ news)) :
    Lifecycle s'.supervisor.name s'.supervisor.config s'.supervisor.life s'.events := by
  rwa [hf.name_eq, hf.config_eq, hf.life_eq, hf.events_eq]

/-- What an operation can do leads from word to word. -/
theorem of_move (m : Move s s')
    (h : Lifecycle s.supervisor.name s.supervisor.config s.supervisor.life s.events) :
    Lifecycle s'.supervisor.name s'.supervisor.config s'.supervisor.life s'.events := by
  cases m with
  | rests hf =>
    rw [← List.append_nil s.events] at h
    exact of_follows hf h
  | fails hlife hf =>
    rw [hlife] at h
    obtain ⟨attempts, hevents⟩ := h.exists_of_notStarted
    refine of_follows hf ?_
    rw [hevents, ← List.replicate_succ']
    exact .notStarted _
  | starts hlife hf =>
    rw [hlife] at h
    obtain ⟨attempts, hevents⟩ := h.exists_of_notStarted
    refine of_follows hf ?_
    rw [hevents]
    exact .started attempts []
  | talks hlife hf =>
    rw [hlife] at h
    obtain ⟨attempts, reasons, hevents⟩ := h.exists_of_started
    refine of_follows hf ?_
    rw [hevents, List.append_nil]
    exact .started attempts reasons
  | misses hlife hf | notices hlife hf =>
    rw [hlife] at h
    obtain ⟨attempts, reasons, hevents⟩ := h.exists_of_started
    refine of_follows hf ?_
    rw [hevents, running_snoc]
    exact .started attempts _
  | settles hlife hf =>
    rw [hlife] at h
    obtain ⟨attempts, reasons, ladder, hevents⟩ := h.exists_of_stopped
    refine of_follows hf ?_
    rw [hevents, List.append_nil]
    exact .stopped attempts reasons ladder
  | stops hlife hf =>
    rw [hlife] at h
    obtain ⟨attempts, reasons, hevents⟩ := h.exists_of_started
    refine of_follows hf ?_
    rw [hevents]
    exact .stopped attempts reasons _

/-- An operation does not change whose supervisor it is. -/
theorem owner_eq (m : Move s s') :
    s'.supervisor.name = s.supervisor.name ∧ s'.supervisor.config = s.supervisor.config := by
  cases m with
  | rests hf | fails _ hf | starts _ hf | talks _ hf | misses _ hf | notices _ hf | settles _ hf
  | stops _ hf => exact ⟨hf.name_eq, hf.config_eq⟩

variable (H : Host η)

/-- What is announced after some operations. -/
theorem of_operations (ops : List (Operation η))
    (h : Lifecycle name config s.supervisor.life s.events)
    (hname : s.supervisor.name = name) (hconfig : s.supervisor.config = config) :
    let s' := performAll H ops s
    Lifecycle name config s'.supervisor.life s'.events ∧
      s'.supervisor.name = name ∧ s'.supervisor.config = config := by
  induction ops generalizing s with
  | nil => exact ⟨h, hname, hconfig⟩
  | cons op ops ih =>
    have hmove := perform_move H op s
    obtain ⟨hname', hconfig'⟩ := owner_eq hmove
    rw [hname] at hname'
    rw [hconfig] at hconfig'
    have hnext := of_move hmove (by rwa [hname, hconfig])
    rw [hname', hconfig'] at hnext
    exact ih hnext hname' hconfig'

/-- **Stopping a server** that was started returns the tier that is announced last. That a killed
child is still there is announced exactly if it was not seen to be gone, so exactly if it was killed
and the wait for it after that was in vain. -/
theorem stop_told (h : Lifecycle name config s.supervisor.life s.events)
    (hname : s.supervisor.name = name) (hconfig : s.supervisor.config = config) {pid : Pid}
    {line : Line} {channel : Channel} {reaped : Bool}
    (hlife : s.supervisor.life = .started pid line channel reaped) :
    ∃ tier s', (stop H).alone H s = (.ok tier, s') ∧
      s'.events.getLast? = some (.stopped name pid tier) ∧ tier.Told s'.events ∧
      (Survived s'.events ↔ s'.supervisor.life.reaped = false) ∧
      (Survived s'.events ↔ reaped = false ∧
        ∃ h, Kills H pid config (H.closeLine line s.host) h ∧
          (waitHost H pid config.killTimeout config.pollPeriod h).1 = false) := by
  subst hname hconfig
  refine ⟨_, _, stop_of_started H hlife, ?_, ?_⟩
  · rw [Event.stopping, ← List.append_assoc]
    exact List.getLast?_concat
  · rw [hlife] at h
    obtain ⟨attempts, reasons, hevents⟩ := h.exists_of_started
    simp only [hevents]
    refine ⟨told .., (survived_iff ..).trans ?_, (survived_iff ..).trans ?_⟩
    · generalize (stopHost H pid s.supervisor.config reaped _).1 = ladder
      cases ladder <;> simp [Ladder.outcome, Life.reaped]
    · rw [stopHost]
      cases reaped with
      | true => simp
      | false => simp [Escalation.survived_iff]

/-- **What is announced of a server** by any sequence of operations, whatever the child does. It is
a word of its supervisor's stage of life, and dropping the supervisor adds nothing to it. Every
event has the name of the server, and it has the child's number exactly from the server's start on.
A tier is the one that the announced signals speak of. Stopping the server, at any time when it can
be stopped, returns the tier that is announced last, and then it was announced that the killed child
is still there exactly if it was not seen to be gone: if it was killed and the wait of the kill
timeout was in vain. -/
theorem lifecycle_of_operations (server : Server σ) (state : σ) (config : Config) (now : Instant)
    (host : η) (ops : List (Operation η)) :
    let name := server.name state
    let s := performAll H ops { supervisor := .ofServer server state config now, host }
    Lifecycle name config s.supervisor.life s.events ∧
    (drop H s).2.events = s.events ∧
    (∀ e ∈ s.events, e.server = some name) ∧
    (∀ e ∈ s.events.takeWhile (·.kind ≠ .serverStarted), e.pid = none) ∧
    (∀ e ∈ s.events.dropWhile (·.kind ≠ .serverStarted),
      e.pid.isSome ∧ e.pid = s.supervisor.life.pid?) ∧
    (∀ e ∈ s.events, e.kind = .serverStopped →
      ∃ tier, e.tier = some tier ∧ tier.Told s.events) ∧
    ∀ pid line channel reaped, s.supervisor.life = .started pid line channel reaped →
      ∃ tier s', (stop H).alone H s = (.ok tier, s') ∧
        s'.events.getLast? = some (.stopped name pid tier) ∧ tier.Told s'.events ∧
        (Survived s'.events ↔ s'.supervisor.life.reaped = false) ∧
        (Survived s'.events ↔ reaped = false ∧
          ∃ h, Kills H pid config (H.closeLine line s.host) h ∧
            (waitHost H pid config.killTimeout config.pollPeriod h).1 = false) := by
  intro name s
  obtain ⟨h, hname, hconfig⟩ := of_operations H ops (.notStarted 0)
    (s := { supervisor := .ofServer server state config now, host }) rfl rfl
  obtain ⟨hbefore, hsince⟩ := h.pid_eq
  refine ⟨h, drop_events H s, h.server_eq, hbefore, hsince, h.tier_told, ?_⟩
  intro pid line channel reaped hlife
  exact h.stop_told H hname hconfig hlife

end Lifecycle

end Overseer
