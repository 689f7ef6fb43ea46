import Overseer.Loop.Serve
import Overseer.Proofs.Loop.Loyalty

/-!
# Taking over the signals

A loop takes over the signals of its process before its server is set up. That binds signals and
registers the socket, and is otherwise a course (`takeOver_ok`); where nothing preempts it, it
installs a manager (`takeOver_of_quiet`), which binds every trappable signal as planned
(`SignalManager.install_snd`).
-/

namespace Overseer

namespace SignalManager

variable {plan : List (Signal × Disposition)} {signals : List Signal}

/-- What binding some signals as planned changes. -/
theorem foldl_replace_snd (m : SignalManager) (s : SignalState) :
    (signals.foldl (fun (m, s) signal => m.replace signal (planned plan signal) s) (m, s)).2 =
      { s with dispositions := fun signal =>
          if signal ∈ signals then planned plan signal else s.dispositions signal } := by
  induction signals generalizing m s with
  | nil => rfl
  | cons other signals ih =>
    rw [List.foldl_cons]
    refine (ih _ _).trans ?_
    show SignalState.mk _ s.pending s.quitRequest s.wakeup = _
    congr 1
    funext signal
    by_cases hmem : signal ∈ signals
    · rw [if_pos hmem, if_pos (List.mem_cons_of_mem _ hmem)]
    · rw [if_neg hmem]
      show (if signal = other then planned plan other else s.dispositions signal) = _
      by_cases heq : signal = other
      · subst heq
        rw [if_pos rfl, if_pos List.mem_cons_self]
      · have hnot : signal ∉ other :: signals := by
          rw [List.mem_cons]
          exact not_or.2 ⟨heq, hmem⟩
        rw [if_neg heq, if_neg hnot]

theorem mem_trappable (signal : Signal) :
    signal ∈ Signal.all.filter Signal.trappable ↔ signal.trappable = true := by
  rw [List.mem_filter]
  refine and_iff_right ?_
  cases signal <;> decide

/-- **A manager binds what can be trapped as planned**, and nothing else. -/
theorem install_snd (plan : List (Signal × Disposition)) (s : SignalState) :
    (install plan s).2 =
      { s.clear with dispositions := fun signal =>
          if signal.trappable then planned plan signal else s.dispositions signal } := by
  unfold install
  rw [foldl_replace_snd]
  simp only [mem_trappable]
  rfl

end SignalManager

namespace Loop

variable {σ : Type} {plan : List (Signal × Disposition)} {signals : List Signal}
  {table : SignalTable (Callback σ)} {m : SignalManager} {w w₀ : World σ}

/-- How a server binds its signals when it begins to serve. -/
def tableOf (srv : Server σ) (config : Config) (server : σ) : SignalTable (Callback σ) :=
  srv.bindSignals server (.ofTermination config.terminationSignal)

section
variable {srv : Server σ} {config : Config} {server : σ} {process : Process}

/-- A run that manages its signals takes them over and puts them back. -/
theorem serve_of_managed (h : config.manageSignals = true) :
    serve srv config (start server config process) =
      (takeOver (tableOf srv config server) >>= fun m =>
        restoring m (hooked srv (tableOf srv config server))) (start server config process) := by
  rw [serve, Code.get_bind]
  exact congrFun (if_pos h) _

theorem serve_of_unmanaged (h : config.manageSignals = false) :
    serve srv config (start server config process) =
      hooked srv (tableOf srv config server) (start server config process) := by
  rw [serve, Code.get_bind]
  exact congrFun (if_neg (Bool.eq_false_iff.1 h)) _

end

/-- Binding signals leaves the loop and the process's end of the pair alone. -/
theorem bindAll_keeps {plan : List (Signal × Disposition)} {signals : List Signal}
    {m m' : SignalManager} {w w' : World σ} (h : bindAll plan signals m w = .ok m' w') :
    w'.context = w.context ∧ w'.process.socket = w.process.socket := by
  induction signals generalizing m w with
  | nil =>
    cases h
    exact ⟨rfl, rfl⟩
  | cons signal signals ih =>
    rw [bindAll, Code.bind_apply] at h
    rw [Code.modifySignals_apply] at h
    simp only at h
    rw [Code.bind_apply] at h
    split at h
    · next w₁ hpreempt =>
      obtain ⟨hcontext, notes, hcourse⟩ := Code.disturb_ok Process.Course.preempt hpreempt
      obtain ⟨hcontext', hsocket'⟩ := ih h
      exact ⟨hcontext'.trans hcontext, hsocket'.trans hcourse.socket_eq⟩
    · cases h

/-- What a loop has done that has taken over the signals. -/
theorem takeOver_ok {table : SignalTable (Callback σ)} {m : SignalManager} {w w₀ : World σ}
    (h : takeOver table w = .ok m w₀) :
    w₀.context = w.context ∧ w₀.process.socket = w.process.socket ∧
      w₀.process.signals.wakeup = (some w.process.socket).filter (0 ≤ ·) := by
  unfold takeOver at h
  rw [Code.bind_apply, Code.modifySignals_apply] at h
  simp only at h
  rw [Code.bind_apply] at h
  split at h
  · next m' w₁ hbind =>
    obtain ⟨hcontext, hsocket⟩ := bindAll_keeps hbind
    rw [Code.get_bind, Code.bind_apply, Code.modifySignals_apply] at h
    simp only at h
    rw [Code.bind_apply] at h
    split at h
    · next w₂ hpreempt =>
      obtain ⟨hcontext', notes, hcourse⟩ := Code.disturb_ok Process.Course.preempt hpreempt
      cases h
      refine ⟨hcontext'.trans hcontext, hcourse.socket_eq.trans hsocket, ?_⟩
      rw [hcourse.wakeup_eq, ← show w₁.process.socket = w.process.socket from hsocket]
      rfl
    · cases h
  · cases h

/-! ## Without a signal in between -/

/-- Nothing preempts a running process that no signal arrives at. -/
theorem preempt_of_quiet (h : w.process.arrivals = []) (hrun : w.process.status = .running) :
    Code.preempt w = .ok () w := by
  have hsame : w.process.preempt = w.process := by
    unfold Process.preempt
    rw [h]
  have hresume : w.process.preempt.resume = w.process := by
    rw [hsame]
    exact if_pos hrun
  simp only [Code.preempt, Code.disturb, hresume, hrun]

/-- Nor is the code behind a change of the signals preempted. -/
theorem modifySignals_of_quiet {α β : Type} (h : w.process.arrivals = [])
    (hrun : w.process.status = .running) (f : SignalState → α × SignalState) (k : α → Code σ β) :
    (Code.modifySignals f >>= fun a => Code.preempt >>= fun _ => k a) w =
      k (f w.process.signals).1
        { w with process := { w.process with signals := (f w.process.signals).2 } } := by
  rw [Code.bind_apply, Code.modifySignals_apply]
  simp only
  rw [Code.bind_apply]
  have hquiet : Code.preempt (σ := σ) _ = _ := preempt_of_quiet
    (w := { w with process := { w.process with signals := (f w.process.signals).2 } }) h hrun
  rw [hquiet]

theorem bindAll_of_quiet (h : w.process.arrivals = []) (hrun : w.process.status = .running) :
    bindAll plan signals m w =
      let (m, s) := signals.foldl
        (fun (m, s) signal => m.replace signal (SignalManager.planned plan signal) s)
        (m, w.process.signals)
      .ok m { w with process := { w.process with signals := s } } := by
  induction signals generalizing m w with
  | nil => rfl
  | cons signal signals ih =>
    rw [bindAll, modifySignals_of_quiet h hrun]
    exact ih h hrun

/-- **A loop that no signal disturbs installs a manager** and registers the socket. -/
theorem takeOver_of_quiet (h : w.process.arrivals = []) (hrun : w.process.status = .running) :
    takeOver table w =
      .ok (SignalManager.install table.plan w.process.signals).1
        { w with process := { w.process with
          signals := (SignalManager.install table.plan w.process.signals).2.setWakeup
            w.process.socket } } := by
  unfold takeOver
  rw [Code.bind_apply, Code.modifySignals_apply]
  simp only
  rw [Code.bind_apply]
  have hbind : bindAll (σ := σ) table.plan (Signal.all.filter Signal.trappable) {}
      { w with process := { w.process with signals := w.process.signals.clear } } = _ :=
    bindAll_of_quiet h hrun
  rw [hbind]
  simp only
  rw [Code.get_bind, modifySignals_of_quiet (by exact h) (by exact hrun)]
  rfl

end Loop

end Overseer
