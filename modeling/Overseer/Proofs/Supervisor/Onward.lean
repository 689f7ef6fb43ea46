import Overseer.Proofs.Activity
import Overseer.Proofs.Supervisor.Lifecycle

/-!
# Supervisors only go on

A supervisor that others may use between any two sections of what is done with it still only goes on
in its life: from not started over started to stopped (`Onward`). So one that was started is not
started again, and once it is stopped it stays so, whatever comes between. Nothing that a supervisor
announces could be taken for what a collection announces.
-/

namespace Overseer

/-- Stages of life by their number. -/
def Life.stage : Life → Nat
  | notStarted => 0
  | started .. => 1
  | stopped .. => 2

/-- Whether the channel to the child was closed. -/
def Life.isStopped : Life → Bool
  | stopped .. => true
  | _ => false

theorem Life.stage_eq_two {life : Life} : life.stage = 2 ↔ life.isStopped = true := by
  cases life <;> simp [stage, isStopped]

theorem Life.stage_le_two (life : Life) : life.stage ≤ 2 := by
  cases life <;> simp [stage]

theorem Life.stage_eq_one {life : Life} : life.stage = 1 ↔ life.isStarted = true := by
  cases life <;> simp [stage, isStarted]

/-- Whether collections announce such events, of servers that come and go. -/
def EventKind.isOfCollection : EventKind → Bool
  | serverAdded | serverRemoved | idleCleaned => true
  | _ => false

variable {η σ : Type} (H : Host η)

/-- A scene at a later time: the supervisor has not gone back in its life, and what was announced
meanwhile is not what collections announce. -/
structure Onward (s s' : Scene η σ) : Prop where
  stage_le : s.supervisor.life.stage ≤ s'.supervisor.life.stage
  news : ∃ news, s'.events = s.events ++ news ∧ ∀ e ∈ news, e.kind.isOfCollection = false

namespace Onward

variable {s s' s'' : Scene η σ}

theorem of_same (hlife : s'.supervisor.life = s.supervisor.life) (hevents : s'.events = s.events) :
    Onward s s' :=
  ⟨Nat.le_of_eq (congrArg Life.stage hlife.symm), [], by rw [hevents, List.append_nil],
    List.forall_mem_nil _⟩

theorem refl (s : Scene η σ) : Onward s s := of_same rfl rfl

theorem trans (h : Onward s s') (h' : Onward s' s'') : Onward s s'' := by
  obtain ⟨hle, news, hnews, hkinds⟩ := h
  obtain ⟨hle', news', hnews', hkinds'⟩ := h'
  exact ⟨Nat.le_trans hle hle', news ++ news', by rw [hnews', hnews, List.append_assoc],
    List.forall_mem_append.2 ⟨hkinds, hkinds'⟩⟩

/-- What was announced since nothing was. -/
theorem kinds (h : Onward s s') (hevents : s.events = []) :
    ∀ e ∈ s'.events, e.kind.isOfCollection = false := by
  obtain ⟨-, news, hnews, hkinds⟩ := h
  rwa [hnews, hevents, List.nil_append]

end Onward

namespace Supervisor

open Act Activity Escalation

/-- Signing an event does not change what kind of event it is. -/
@[simp] theorem signed_kind (s : Supervisor σ) (e : Event) : (s.signed e).kind = e.kind := by
  rw [signed]
  cases s.life.pid? <;> rfl

theorem announce_onward {e : Event} (he : e.kind.isOfCollection = false) (s : Scene η σ) :
    Onward s (announce e s).2 := by
  refine ⟨Nat.le_refl _, [s.supervisor.signed e], rfl, ?_⟩
  simpa using he

theorem onHost_onward {α : Type} (f : η → α × η) (s : Scene η σ) : Onward s (onHost f s).2 :=
  .of_same rfl rfl

theorem enter_stopped_onward (pid : Pid) (reaped : Bool) (s : Scene η σ) :
    Onward s (enter (.stopped pid reaped) s).2 :=
  ⟨s.supervisor.life.stage_le_two, [], (List.append_nil _).symm, List.forall_mem_nil _⟩

/-! ## Stopping -/

theorem look_onward (pid : Pid) :
    Each Onward (fun _ => True) (look H pid : LongAct η σ Bool) :=
  each_atOnce fun s => onHost_onward _ s

theorem send_onward (pid : Pid) (signal : Signal) :
    Each Onward (fun _ => True) (send H pid signal : LongAct η σ Bool) :=
  each_atOnce fun s => onHost_onward _ s

theorem pollWithin_onward (pid : Pid) (pause : Duration) (pauses rest : Nat) :
    Each Onward (fun _ => True) (pollWithin H pid pause pauses rest : LongAct η σ Bool) := by
  induction pauses generalizing rest with
  | zero => exact look_onward H pid
  | succ pauses ih =>
    rw [pollWithin]
    split
    · exact each_bind (each_await _) fun _ _ => look_onward H pid
    · refine each_bind (each_await _) fun _ _ => each_bind (look_onward H pid) fun gone _ => ?_
      cases gone with
      | true => exact each_pure trivial
      | false => exact ih _

theorem waitForExit_onward (pid : Pid) (timeout pause : Duration) :
    Each Onward (fun _ => True) (waitForExit H pid timeout pause : LongAct η σ Bool) := by
  refine each_bind (look_onward H pid) fun gone _ => ?_
  cases gone with
  | true => exact each_pure trivial
  | false =>
    show Each Onward (fun _ => True)
      (if timeout = .zero then pure false else pollWithin H pid pause _ _ : LongAct η σ Bool)
    split
    · exact each_pure trivial
    · exact pollWithin_onward H pid pause _ _

theorem announcing_onward {e : Event} (he : e.kind.isOfCollection = false) :
    Each Onward (fun _ => True) (atOnce (announce e) : LongAct η σ Unit) :=
  each_atOnce (announce_onward he)

theorem killing_onward (pid : Pid) (config : Config) :
    Each Onward (fun _ => True) (killing H pid config : LongAct η σ Outcome) := by
  refine each_bind (send_onward H pid .kill) fun there _ => ?_
  cases there with
  | false => exact each_bind (look_onward H pid) fun _ _ => each_pure trivial
  | true =>
    refine each_bind (announcing_onward rfl) fun _ _ =>
      each_bind (waitForExit_onward H pid _ _) fun gone _ => ?_
    cases gone with
    | true => exact each_pure trivial
    | false => exact each_bind (announcing_onward rfl) fun _ _ => each_pure trivial

theorem terminating_onward (pid : Pid) (config : Config) :
    Each Onward (fun _ => True) (terminating H pid config : LongAct η σ Outcome) := by
  refine each_bind (send_onward H pid _) fun there _ => ?_
  cases there with
  | false => exact each_bind (look_onward H pid) fun _ _ => each_pure trivial
  | true =>
    refine each_bind (announcing_onward rfl) fun _ _ =>
      each_bind (waitForExit_onward H pid _ _) fun gone _ => ?_
    cases gone with
    | true => exact each_pure trivial
    | false => exact killing_onward H pid config

theorem ladder_onward (pid : Pid) (config : Config) :
    Each Onward (fun _ => True) (Escalation.escalate H pid config : LongAct η σ Outcome) := by
  refine each_bind (waitForExit_onward H pid _ _) fun gone _ => ?_
  cases gone with
  | true => exact each_pure trivial
  | false => exact terminating_onward H pid config

theorem escalate_onward (pid : Pid) (config : Config) (reaped : Bool) :
    Each Onward (fun _ => True) (Supervisor.escalate H pid config reaped : LongAct η σ StopTier) := by
  cases reaped with
  | true => exact each_pure trivial
  | false =>
    exact each_bind (ladder_onward H pid config) fun outcome _ =>
      each_bind (each_atOnce (enter_stopped_onward pid _)) fun _ _ => each_pure trivial

/-- What stopping can answer: the tier in which the child was gone, or that there was nothing to
stop. -/
def StopAnswer (answer : Except SupervisorError StopTier) : Prop :=
  (∃ tier, answer = .ok tier) ∨ answer = .error .notStarted

/-- What is done to stop a server once its supervisor was told to hang up. -/
def afterHangUp : Except SupervisorError (Pid × Bool) →
    LongAct η σ (Except SupervisorError StopTier)
  | .error e => pure (.error e)
  | .ok (pid, reaped) => do
    let config := (← get).supervisor.config
    let tier ← Supervisor.escalate H pid config reaped
    atOnce (announce (({ kind := .serverStopped } : Event).withTier tier))
    pure (.ok tier)

theorem stop_eq :
    (stop H : LongAct η σ _) = step (fun s => (hangUp H s).2) fun s => afterHangUp H (hangUp H s).1 :=
  rfl

/-- **To hang up stops** a supervisor that was started before. -/
theorem hangUp_onward (s : Scene η σ) :
    Onward s (hangUp H s).2 ∧
      (1 ≤ s.supervisor.life.stage → (hangUp H s).2.supervisor.life.isStopped = true) ∧
        ∀ e, (hangUp H s).1 = .error e → e = .notStarted := by
  cases hlife : s.supervisor.life with
  | notStarted | stopped =>
    have hrun : hangUp H s = (.error .notStarted, s) := by
      rw [hangUp, bind_run, get_run, hlife]
      rfl
    rw [hrun, hlife]
    refine ⟨.refl s, ?_, ?_⟩
    · simp [Life.stage, Life.isStopped]
    · rintro _ ⟨⟩
      rfl
  | started pid line channel reaped =>
    rw [hangUp_of_started H hlife]
    refine ⟨⟨by simp [hlife, Life.stage], _, rfl, ?_⟩, fun _ => rfl, ?_⟩
    · simp [Event.stopRequested, EventKind.isOfCollection, Event.withTimeout]
    · rintro _ ⟨⟩

theorem afterHangUp_onward (answer : Except SupervisorError (Pid × Bool))
    (h : ∀ e, answer = .error e → e = .notStarted) :
    Each Onward StopAnswer (afterHangUp H answer : LongAct η σ _) := by
  cases answer with
  | error e =>
    obtain rfl := h e rfl
    exact each_pure (.inr rfl)
  | ok child =>
    refine each_bind (each_atOnce fun s => .refl s) fun s _ =>
      each_bind (escalate_onward H _ _ _) fun tier _ =>
        each_bind (announcing_onward rfl) fun _ _ => each_pure (.inl ⟨tier, rfl⟩)

theorem stop_onward : Each Onward StopAnswer (stop H : LongAct η σ _) := fun s _ =>
  ⟨(), (hangUp_onward H s).1, afterHangUp_onward H _ (hangUp_onward H s).2.2⟩

/-! ## Operations -/

theorem Follows.onward {s s' : Scene η σ} {old life : Life} {news : List Event}
    (h : Follows s s' life news) (hlife : s.supervisor.life = old) (hle : old.stage ≤ life.stage)
    (hnews : ∀ e ∈ news, e.kind.isOfCollection = false) : Onward s s' :=
  ⟨by rwa [h.life_eq, hlife], news, h.events_eq, hnews⟩

theorem steps_kind (config : Config) (ladder : Ladder) :
    ∀ e ∈ ladder.steps config, e.kind.isOfCollection = false := by
  cases ladder <;> simp [Ladder.steps, Ladder.terminationSent, Ladder.killSent, Ladder.notReaped,
    EventKind.isOfCollection]

theorem Move.onward {s s' : Scene η σ} (m : Move s s') : Onward s s' := by
  cases m with
  | rests h => exact h.onward rfl (Nat.le_refl _) (List.forall_mem_nil _)
  | fails hlife h => exact h.onward hlife (Nat.le_refl 0) (List.forall_mem_singleton.2 rfl)
  | starts hlife h =>
    exact h.onward hlife (Nat.zero_le 1)
      (List.forall_mem_cons.2 ⟨rfl, List.forall_mem_singleton.2 rfl⟩)
  | talks hlife h => exact h.onward hlife (Nat.le_refl 1) (List.forall_mem_nil _)
  | misses hlife h | notices hlife h =>
    exact h.onward hlife (Nat.le_refl 1) (List.forall_mem_singleton.2 rfl)
  | settles hlife h => exact h.onward hlife (Nat.le_refl 2) (List.forall_mem_nil _)
  | stops hlife h =>
    exact h.onward hlife (Nat.le_succ 1)
      (Lifecycle.forall_stopping _ rfl (steps_kind _ _) rfl)

/-- An operation that others may come between. Only stopping takes time. -/
def Operation.act : Operation η → LongAct η σ Unit
  | stop => do
    let _ ← Supervisor.stop H
    pure ()
  | op => atOnce fun s => ((), op.perform H s)

theorem Operation.act_onward (op : Operation η) :
    Each Onward (fun _ => True) (op.act H : LongAct η σ Unit) := by
  have hperform (op : Operation η) :
      Each Onward (fun _ => True) (atOnce fun s => ((), op.perform H s) : LongAct η σ Unit) :=
    each_atOnce fun s => (perform_move H op s).onward
  cases op with
  | stop => exact each_bind (stop_onward H) fun _ _ => each_pure trivial
  | start | isRunning | request | useChannel | touch =>
    exact hperform _

/-! ## Starting -/

/-- A server that could be started runs. -/
theorem start_ok {s : Scene η σ} (h : (start H s).1 = .ok ()) :
    (start H s).2.supervisor.isStarted = true := by
  by_cases hlife : s.supervisor.life = .notStarted
  · rw [start, bind_run, get_run, hlife] at h ⊢
    simp only [bind_run, announce_run, onHost_run] at h ⊢
    generalize H.openLine s.host = answer at h ⊢
    obtain ⟨line, host⟩ := answer
    cases line with
    | error e => cases h
    | ok line =>
      simp only [bind_run, prepareFork_run] at h ⊢
      generalize s.supervisor.server.beforeFork {} s.supervisor.state = answer at h ⊢
      obtain ⟨keep, state⟩ := answer
      cases keep with
      | error e => cases h
      | ok keep =>
        simp only [forkOn, bind_run, get_run, onHost_run] at h ⊢
        generalize H.fork line _ host = answer at h ⊢
        obtain ⟨pid, host⟩ := answer
        cases pid with
        | error e => cases h
        | ok pid => rfl
  · rw [start_of_born H hlife] at h
    cases h

end Supervisor

end Overseer
