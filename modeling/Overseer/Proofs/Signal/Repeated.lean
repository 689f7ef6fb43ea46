import Overseer.Proofs.Loop.Finalizing

/-!
# Putting signals back twice

The signals of a process are shared by all its managers, and others may use them, too. So what
happens between the first and the second time that a manager puts back what it remembers can be
anything: other managers come and go, signals are delivered, a loop registers its descriptor. A
manager that was told to put everything back remembers nothing after that, whatever happens
(`Spent.run`), so the second time it binds no signal and drops no mark.

It does one thing nevertheless: it sees to it that no descriptor is shut any more. If a loop has
registered its descriptor meanwhile, that one is forgotten, and a request to quit does not end the
loop's read (`restored_again`, `descriptor_forgotten`). To give the manager up is not like that: it
looks first whether there is anything to put back.
-/

namespace Overseer

/-- The signals of a process with all managers that were ever installed, in the order in which they
were. Those that were given up are gone. -/
structure ManagedSignals where
  state : SignalState := {}
  managers : List (Option SignalManager) := []

namespace ManagedSignals

/-- What happens to the signals of a process. -/
inductive Move where
  /-- Another manager is installed. -/
  | install (plan : List (Signal × Disposition))
  /-- The manager of a number puts back what it remembers. -/
  | restore (i : Nat)
  /-- The manager of a number is given up. -/
  | release (i : Nat)
  /-- Anything else: a signal is delivered, a mark is taken up, a descriptor is registered. -/
  | other (change : SignalState → SignalState)

/-- The manager of a number, unless it was given up. -/
def manager? (p : ManagedSignals) (i : Nat) : Option SignalManager := p.managers[i]?.join

/-- The process after one move. -/
def step (p : ManagedSignals) : Move → ManagedSignals
  | .install plan =>
    { state := (SignalManager.install plan p.state).2
      managers := p.managers ++ [some (SignalManager.install plan p.state).1] }
  | .restore i =>
    (p.manager? i).elim p fun m =>
      { state := (m.restore p.state).2, managers := p.managers.set i (some (m.restore p.state).1) }
  | .release i =>
    (p.manager? i).elim p fun m =>
      { state := m.release p.state, managers := p.managers.set i none }
  | .other change => { p with state := change p.state }

/-- The process after some moves. -/
def run (p : ManagedSignals) (moves : List Move) : ManagedSignals := moves.foldl step p

/-- The manager of a number was installed, and remembers nothing if it is still there. -/
structure Spent (p : ManagedSignals) (i : Nat) : Prop where
  lt_length : i < p.managers.length
  saved_eq : ∀ m, p.manager? i = some m → m.saved = []

variable {p : ManagedSignals} {i : Nat} {m : SignalManager}

theorem lt_length_of_manager? (h : p.manager? i = some m) : i < p.managers.length := by
  rw [manager?, Option.join_eq_some_iff] at h
  exact (List.getElem?_eq_some_iff.1 h).1

theorem manager?_set (s : SignalState) (j : Nat) (entry : Option SignalManager)
    (hi : i < p.managers.length) :
    ({ state := s, managers := p.managers.set j entry } : ManagedSignals).manager? i =
      if j = i then entry else p.manager? i := by
  rw [manager?, List.getElem?_set]
  by_cases heq : j = i
  · rw [if_pos heq, if_pos heq, if_pos (heq ▸ hi)]
    rfl
  · rw [if_neg heq, if_neg heq]
    rfl

/-- **No move makes a manager remember anything again.** -/
theorem Spent.step (h : p.Spent i) (move : Move) : (p.step move).Spent i := by
  cases move with
  | install plan =>
    refine ⟨?_, fun m hm => h.saved_eq m ?_⟩
    · show i < (p.managers ++ [_]).length
      rw [List.length_append]
      exact Nat.lt_add_right _ h.lt_length
    · rw [← hm]
      show p.managers[i]?.join = (p.managers ++ [_])[i]?.join
      rw [List.getElem?_append_left h.lt_length]
  | other change => exact ⟨h.lt_length, h.saved_eq⟩
  | restore j | release j =>
    rw [ManagedSignals.step]
    cases hj : p.manager? j with
    | none => exact h
    | some mj =>
      refine ⟨by rw [Option.elim_some, List.length_set]; exact h.lt_length, fun m hm => ?_⟩
      rw [Option.elim_some, manager?_set _ _ _ h.lt_length] at hm
      by_cases heq : j = i
      · rw [if_pos heq] at hm
        cases hm <;> rfl
      · rw [if_neg heq] at hm
        exact h.saved_eq m hm

theorem Spent.run (h : p.Spent i) (moves : List Move) : (p.run moves).Spent i := by
  induction moves generalizing p with
  | nil => exact h
  | cons move moves ih => exact ih (h.step move)

/-- A manager that puts back what it remembers remembers nothing after that. -/
theorem spent_of_restore (h : p.manager? i = some m) : (p.step (.restore i)).Spent i := by
  have hlt := lt_length_of_manager? h
  rw [step, h, Option.elim_some]
  refine ⟨by rw [List.length_set]; exact hlt, fun m' hm' => ?_⟩
  rw [manager?_set _ _ _ hlt, if_pos rfl] at hm'
  cases hm'
  rfl

theorem restore_of_saved_nil (h : m.saved = []) (s : SignalState) :
    m.restore s = ({}, { s with wakeup := none }) := by
  rw [SignalManager.restore, h]
  rfl

/-- **The second time that a manager puts back what it remembers** it binds no signal, whatever has
happened since and whichever signals refuse to be bound, and drops neither a mark nor a request to
quit. No descriptor is shut any more after that, so it is nothing at all only if none was
registered. To give the manager up then is to do nothing. -/
theorem restored_again (m : SignalManager) (h : p.manager? i = some m) (since : List Move)
    (m' : SignalManager) (h' : ((p.step (.restore i)).run since).manager? i = some m') :
    let s := ((p.step (.restore i)).run since).state
    (∀ refusal, m'.restoreOn refusal s = (.ok (), { s with wakeup := none })) ∧
      (m'.restore s).2 = { s with wakeup := none } ∧
      ((m'.restore s).2 = s ↔ s.wakeup = none) ∧
      ∀ s', (m'.restore s).1.release s' = s' := by
  intro s
  have hsaved : m'.saved = [] := ((spent_of_restore h).run since).saved_eq m' h'
  rw [restore_of_saved_nil hsaved]
  refine ⟨fun refusal => ?_, rfl, ?_, fun s' => rfl⟩
  · rw [SignalManager.restoreOn, hsaved]
    rfl
  · constructor
    · exact fun heq => (congrArg SignalState.wakeup heq).symm
    · intro hnone
      rw [← hnone]

/-- The first loop of a process has ended, and the second one has registered its descriptor. -/
def secondLoop : List Move :=
  [.install [(.term, .quit), (.usr1, .deferred)], .other (·.setWakeup (some 5)),
    .other fun s => (s.deliver .usr1).2]

theorem restored_again_secondLoop :
    let p := ((({} : ManagedSignals).step (.install [(.term, .quit)])).step (.restore 0)).run
      secondLoop
    p.state.pending .usr1 = true ∧
      ∃ m, p.manager? 0 = some m ∧ (m.restore p.state).2 = { p.state with wakeup := none } := by
  intro p
  obtain ⟨-, hagain, -⟩ := restored_again
    (p := ({} : ManagedSignals).step (.install [(.term, .quit)])) (i := 0) _ rfl secondLoop _ rfl
  exact ⟨by decide +kernel, _, rfl, hagain⟩

/-- The manager of the first loop puts everything back twice. Before the second time a request to
quit would have ended the read of the second loop, and it does not any more. -/
theorem descriptor_forgotten :
    let p := ((({} : ManagedSignals).step (.install [(.term, .quit)])).step (.restore 0)).run
      secondLoop
    (p.state.requestQuit .term).1 = some 5 ∧
      ((p.step (.restore 0)).state.requestQuit .term).1 = none :=
  ⟨rfl, rfl⟩

end ManagedSignals

end Overseer
