import Overseer.Proofs.Loop.Callbacks
import Overseer.Proofs.Loop.Restoring

/-!
# What a table binds is what is installed

What a server wants its signals to do is put in three forms: its table, which is built by one
binding on top of another, the plan of that table, and the dispositions that a manager installs for
the plan. They agree (`SignalManager.install_plan`): each signal that can be trapped has the
disposition of its last binding, but for the hang-up signal, which is ignored, and no other signal
is touched. That is so as well if signals arrive while a loop takes the signals over
(`takeOver_dispositions`).

So the marks that a manager leads to are for callbacks. As long as no signal is bound anew, a mark
comes from a delivery to a signal that is deferred (`SignalState.undergoAll_pending`), and those are
the signals for which the table has a callback (`last_binding_counts`).
-/

namespace Overseer

namespace SignalTable

variable {β : Type}

/-- Binds some signals on top of a table, one after the other. -/
def bindAll (t : SignalTable β) (bindings : List (Signal × SignalAction β)) : SignalTable β :=
  bindings.foldl (fun t binding => t.set binding.1 binding.2) t

theorem action?_set (t : SignalTable β) (signal other : Signal) (a : SignalAction β) :
    (t.set signal a).action? other = if other = signal then some a else t.action? other := rfl

/-- The last binding of a signal counts. -/
theorem action?_bindAll (t : SignalTable β) (bindings : List (Signal × SignalAction β))
    (signal : Signal) :
    (t.bindAll bindings).action? signal =
      (bindings.reverse.lookup signal).or (t.action? signal) := by
  induction bindings generalizing t with
  | nil => rfl
  | cons binding bindings ih =>
    obtain ⟨other, a⟩ := binding
    rw [List.reverse_cons, List.lookup_append, Option.or_assoc]
    refine (ih (t.set other a)).trans (congrArg _ ?_)
    rw [action?_set, List.lookup_cons]
    by_cases heq : signal = other
    · rw [if_pos heq, beq_iff_eq.2 heq]
      rfl
    · rw [if_neg heq, beq_false_of_ne heq]
      rfl

theorem action?_ofTermination (termination signal : Signal) :
    (ofTermination termination : SignalTable β).action? signal =
      if signal = termination ∨ signal = .int then some .quit else none := by
  rw [ofTermination, action?_set, action?_set]
  by_cases hint : signal = .int
  · rw [if_pos hint, if_pos (.inr hint)]
  · rw [if_neg hint]
    by_cases hterm : signal = termination
    · rw [if_pos hterm, if_pos (.inl hterm)]
    · rw [if_neg hterm, if_neg (not_or.2 ⟨hterm, hint⟩)]

/-- What is to be installed for a signal, if the table says so and it can be trapped. -/
def wanted? (t : SignalTable β) (signal : Signal) : Option Disposition :=
  if signal.trappable then (t.action? signal).map SignalAction.disposition else none

theorem plan_eq (t : SignalTable β) :
    t.plan = Signal.all.filterMap fun signal => (t.wanted? signal).map fun d => (signal, d) := by
  rw [plan, entries, List.filter_filterMap, List.map_filterMap]
  congr 1
  funext signal
  rw [wanted?]
  cases t.action? signal with
  | none => cases signal.trappable <;> rfl
  | some a => cases htrap : signal.trappable <;> simp [htrap]

end SignalTable

namespace SignalManager

variable {β : Type}

/-- In a list that is made signal by signal the entries of a signal are all the same. -/
theorem lookup_filterMap (f : Signal → Option Disposition) (signals : List Signal)
    (signal : Signal) :
    (signals.filterMap fun signal => (f signal).map fun d => (signal, d)).lookup signal =
      if signal ∈ signals then f signal else none := by
  induction signals with
  | nil => rfl
  | cons other signals ih =>
    cases hf : f other with
    | none =>
      rw [List.filterMap_cons_none (by rw [hf]; rfl), ih]
      by_cases heq : signal = other
      · rw [heq, if_pos List.mem_cons_self, hf, ite_self]
      · simp only [List.mem_cons, heq, false_or]
    | some d =>
      rw [List.filterMap_cons_some (b := (other, d)) (by rw [hf]; rfl), List.lookup_cons]
      by_cases heq : signal = other
      · rw [heq, if_pos List.mem_cons_self, hf, BEq.rfl]
      · rw [beq_false_of_ne heq]
        simp only [ih, List.mem_cons, heq, false_or]

/-- The plan of a table has what the table says of each signal. -/
theorem planned_plan (t : SignalTable β) (signal : Signal) :
    planned t.plan signal =
      if signal = .hup then .ignore else (t.wanted? signal).getD .default := by
  rw [planned, SignalTable.plan_eq, ← List.filterMap_reverse, lookup_filterMap,
    if_pos (List.mem_reverse.2 signal.mem_all)]

/-- **What is installed for a table** is what it says of the signals that can be trapped, but for
the hang-up signal. -/
theorem install_plan (t : SignalTable β) (s : SignalState) (signal : Signal) :
    (install t.plan s).2.dispositions signal =
      if signal.trappable then
        if signal = .hup then .ignore
        else ((t.action? signal).map SignalAction.disposition).getD .default
      else s.dispositions signal := by
  rw [install_snd]
  show (if signal.trappable then planned t.plan signal else s.dispositions signal) = _
  rw [planned_plan, SignalTable.wanted?]
  cases signal.trappable <;> rfl

end SignalManager

namespace Loop

variable {σ : Type} {plan : List (Signal × Disposition)} {signals : List Signal}
  {table : SignalTable (Callback σ)} {m m' : SignalManager} {w w' : World σ}

theorem bindAll_dispositions (h : bindAll plan signals m w = .ok m' w') (signal : Signal) :
    w'.process.signals.dispositions signal =
      if signal ∈ signals then SignalManager.planned plan signal
      else w.process.signals.dispositions signal := by
  induction signals generalizing m w with
  | nil =>
    cases h
    rfl
  | cons other signals ih =>
    rw [bindAll, Code.bind_apply, Code.modifySignals_apply] at h
    simp only at h
    rw [Code.bind_apply] at h
    split at h
    · next w₁ hpreempt =>
      rw [ih h, preempt_dispositions hpreempt]
      show (if signal ∈ signals then _
        else if signal = other then SignalManager.planned plan other else _) = _
      by_cases heq : signal = other
      · rw [heq, if_pos rfl, ite_self, if_pos List.mem_cons_self]
      · simp only [List.mem_cons, heq, false_or, if_false]
    · cases h

theorem takeOver_dispositions (h : takeOver table w = .ok m w') :
    w'.process.signals.dispositions =
      (SignalManager.install table.plan w.process.signals).2.dispositions := by
  unfold takeOver at h
  rw [Code.bind_apply, Code.modifySignals_apply] at h
  simp only at h
  rw [Code.bind_apply] at h
  split at h
  · next m₁ w₁ hbind =>
    rw [Code.get_bind, Code.bind_apply, Code.modifySignals_apply] at h
    simp only at h
    rw [Code.bind_apply] at h
    split at h
    · next w₂ hpreempt =>
      cases h
      rw [preempt_dispositions hpreempt, SignalManager.install_snd]
      funext signal
      have hbound := bindAll_dispositions hbind signal
      simp only [SignalManager.mem_trappable] at hbound
      exact hbound
    · cases h
  · cases h

end Loop

namespace SignalState

/-- What may happen to the signals of a process while none is bound anew. -/
inductive Doing where
  | deliver (signal : Signal)
  | requestQuit (signal : Signal)
  | takeQuit
  | takePending
  | setWakeup (fd : Option Int)
  deriving DecidableEq

variable {s : SignalState} {signal : Signal}

/-- The signals when one thing has happened to them. -/
def undergo (s : SignalState) : Doing → SignalState
  | .deliver signal => (s.deliver signal).2
  | .requestQuit signal => (s.requestQuit signal).2
  | .takeQuit => s.takeQuit.2
  | .takePending => s.takePending.2
  | .setWakeup fd => s.setWakeup fd

/-- The signals when one thing after the other has happened to them. -/
def undergoAll (s : SignalState) (doings : List Doing) : SignalState := doings.foldl undergo s

theorem undergo_dispositions (s : SignalState) (doing : Doing) :
    (s.undergo doing).dispositions = s.dispositions := by
  cases doing with
  | deliver signal => exact deliver_dispositions s signal
  | requestQuit | takeQuit | takePending | setWakeup => rfl

theorem undergoAll_dispositions (s : SignalState) (doings : List Doing) :
    (s.undergoAll doings).dispositions = s.dispositions := by
  induction doings generalizing s with
  | nil => rfl
  | cons doing doings ih => exact (ih _).trans (undergo_dispositions s doing)

theorem deliver_pending_iff (s : SignalState) (signal other : Signal) :
    (s.deliver signal).2.pending other = true ↔
      s.pending other = true ∨ other = signal ∧ s.dispositions signal = .deferred := by
  cases hbound : s.dispositions signal with
  | deferred =>
    rw [deliver, hbound]
    show (if other = signal then true else s.pending other) = true ↔ _
    by_cases heq : other = signal
    · simp [heq]
    · simp [heq]
  | default | ignore | quit | foreign =>
    rw [deliver, hbound]
    exact ⟨.inl, fun h => h.resolve_right fun hnot => by cases hnot.2⟩

/-- A mark is made by the delivery of a signal that is deferred, and by nothing else. -/
theorem undergo_pending {doing : Doing} (h : (s.undergo doing).pending signal = true) :
    s.pending signal = true ∨ doing = .deliver signal ∧ s.dispositions signal = .deferred := by
  cases doing with
  | deliver other =>
    obtain hbefore | ⟨rfl, hdeferred⟩ := (deliver_pending_iff s other signal).1 h
    · exact .inl hbefore
    · exact .inr ⟨rfl, hdeferred⟩
  | takePending =>
    cases (takePending_pending s signal).symm.trans h
  | requestQuit | takeQuit | setWakeup => exact .inl h

theorem undergoAll_pending {doings : List Doing}
    (h : (s.undergoAll doings).pending signal = true) :
    s.pending signal = true ∨ .deliver signal ∈ doings ∧ s.dispositions signal = .deferred := by
  induction doings generalizing s with
  | nil => exact .inl h
  | cons doing doings ih =>
    obtain hmarked | ⟨hmem, hdeferred⟩ := ih h
    · obtain hbefore | ⟨rfl, hdeferred⟩ := undergo_pending hmarked
      · exact .inl hbefore
      · exact .inr ⟨List.mem_cons_self, hdeferred⟩
    · rw [undergo_dispositions] at hdeferred
      exact .inr ⟨List.mem_cons_of_mem _ hmem, hdeferred⟩

end SignalState

namespace SignalManager

variable {σ : Type}

theorem disposition_eq_deferred {β : Type} {a : SignalAction β} :
    a.disposition = .deferred ↔ ∃ run, a = .callback run := by
  cases a with
  | callback run => exact iff_of_true rfl ⟨run, rfl⟩
  | default | ignore | quit =>
    constructor
    · intro h
      cases h
    · rintro ⟨run, h⟩
      cases h

/-- The signals that a manager defers for a table are those with a callback. -/
theorem install_deferred {β : Type} (t : SignalTable β) (s : SignalState) {signal : Signal}
    (htrap : signal.trappable = true) :
    (install t.plan s).2.dispositions signal = .deferred ↔
      signal ≠ .hup ∧ ∃ run, t.action? signal = some (.callback run) := by
  rw [install_plan, if_pos htrap]
  by_cases hhup : signal = .hup
  · rw [if_pos hhup]
    exact iff_of_false Disposition.noConfusion fun h => h.1 hhup
  · rw [if_neg hhup, and_iff_right hhup]
    cases t.action? signal with
    | none => simp
    | some a =>
      rw [Option.map_some, Option.getD_some, disposition_eq_deferred]
      simp only [Option.some.injEq]

/-- The signals that cannot be trapped: two that cannot be caught, and those of the four faults. -/
theorem trappable_eq_false {signal : Signal} :
    signal.trappable = false ↔ signal ∈ [Signal.kill, .stop, .segv, .bus, .ill, .fpe] := by
  cases signal <;> decide

/-- **They keep what they had**, whatever is planned for them. -/
theorem install_untrappable {β : Type} (t : SignalTable β) (s : SignalState) {signal : Signal}
    (h : signal ∈ [Signal.kill, .stop, .segv, .bus, .ill, .fpe]) :
    (install t.plan s).2.dispositions signal = s.dispositions signal := by
  rw [install_plan, trappable_eq_false.2 h, if_neg Bool.false_ne_true]

/-- **The last binding of a signal counts**, whatever was bound before. Of the signals that can be
trapped each has the disposition of its last binding when a manager is installed, or the one that it
has of itself, but for the hang-up signal, which is ignored; the others keep what they had. A loop
that takes its signals over binds them like that as well, even if some arrive meanwhile.

As long as none is bound anew, a mark of a signal that can be trapped comes from a delivery and is
for a callback in the table, and each such signal is marked when it is delivered. -/
theorem last_binding_counts (termination : Signal)
    (bindings : List (Signal × SignalAction (Callback σ))) (s : SignalState) :
    let table := (SignalTable.ofTermination termination).bindAll bindings
    let installed := (install table.plan s).2
    (∀ signal, signal.trappable = true → signal ≠ .hup → installed.dispositions signal =
      ((bindings.reverse.lookup signal).map SignalAction.disposition).getD
        (if signal = termination ∨ signal = .int then .quit else .default)) ∧
    installed.dispositions .hup = .ignore ∧
    (∀ signal, signal.trappable = false →
      installed.dispositions signal = s.dispositions signal) ∧
    (∀ (w w' : World σ) m, w.process.signals = s → Loop.takeOver table w = .ok m w' →
      w'.process.signals.dispositions = installed.dispositions) ∧
    ∀ doings,
      (∀ signal, (installed.undergoAll doings).pending signal = true →
        .deliver signal ∈ doings ∧
          if signal.trappable then
            signal ≠ .hup ∧ ∃ run, table.action? signal = some (.callback run)
          else s.dispositions signal = .deferred) ∧
      ∀ signal run, signal.trappable = true → signal ≠ .hup →
        table.action? signal = some (.callback run) →
          ((installed.undergoAll doings).deliver signal).2.pending signal = true := by
  intro table installed
  have hbound : ∀ signal, installed.dispositions signal = _ := install_plan table s
  refine ⟨fun signal htrap hhup => ?_, rfl, fun signal htrap => ?_, fun w w' m hw htake => ?_,
    fun doings => ⟨fun signal hmarked => ?_, fun signal run htrap hhup hrun => ?_⟩⟩
  · rw [hbound, if_pos htrap, if_neg hhup, SignalTable.action?_bindAll,
      SignalTable.action?_ofTermination]
    cases bindings.reverse.lookup signal with
    | some a => rfl
    | none =>
      rw [Option.none_or, Option.map_none, Option.getD_none]
      by_cases hquit : signal = termination ∨ signal = .int
      · rw [if_pos hquit, if_pos hquit]
        rfl
      · rw [if_neg hquit, if_neg hquit]
        rfl
  · exact install_untrappable table s (trappable_eq_false.1 htrap)
  · rw [Loop.takeOver_dispositions htake, hw]
  · -- Nothing is marked when a manager has just been installed.
    have hclear : installed.pending = fun _ => false :=
      congrArg SignalState.pending (install_snd table.plan s)
    have hunmarked : ¬ installed.pending signal = true := by
      rw [hclear]
      exact Bool.false_ne_true
    obtain ⟨hmem, hdeferred⟩ := (SignalState.undergoAll_pending hmarked).resolve_left hunmarked
    refine ⟨hmem, ?_⟩
    cases htrap : signal.trappable with
    | true => exact (install_deferred table s htrap).1 hdeferred
    | false =>
      rw [hbound, htrap] at hdeferred
      exact hdeferred
  · rw [SignalState.deliver_pending_iff, SignalState.undergoAll_dispositions]
    exact .inr ⟨rfl, (install_deferred table s htrap).2 ⟨hhup, run, hrun⟩⟩

/-- Some signals are bound twice, and some that cannot be. -/
def rebound : List (Signal × SignalAction (Callback Unit)) :=
  [(.usr1, .callback fun _ => pure ()), (.term, .ignore), (.hup, .quit), (.usr1, .default),
    (.kill, .ignore), (.usr2, .quit), (.usr2, .callback fun _ => pure ())]

theorem last_binding_counts_rebound :
    let table := (SignalTable.ofTermination .term).bindAll rebound
    let installed := (install table.plan {}).2
    installed.dispositions .usr1 = .default ∧ installed.dispositions .term = .ignore ∧
      installed.dispositions .int = .quit ∧ installed.dispositions .kill = .default ∧
      (installed.deliver .usr2).2.pending .usr2 = true := by
  obtain ⟨hlast, -, hkept, -, hmarks⟩ := last_binding_counts .term rebound {}
  refine ⟨hlast .usr1 rfl (by decide), hlast .term rfl (by decide), hlast .int rfl (by decide),
    hkept .kill rfl, ?_⟩
  exact (hmarks []).2 .usr2 _ rfl (by decide) rfl

end SignalManager

end Overseer
