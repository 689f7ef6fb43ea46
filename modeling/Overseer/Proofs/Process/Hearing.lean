import Overseer.Proofs.Process.Deliveries

/-!
# What a process hears

A mark does not say how often its signal was delivered, nor whether it was before. So the signals
that are delivered to be taken up later are listed here, in order and each as often as it comes, for
all that a process does while signals may be delivered to it. The lists follow its definitions
clause by clause (`Process.heardInAct` to `Process.heardInFrame`). They are read off how the signals
are bound and what is to come, never off the marks; what a list has to do with the marks is a lemma
for each of them: marked is afterwards what was marked before and what is in the list
(`SignalState.Marks`).
-/

namespace Overseer

namespace SignalState

variable {s s' s'' : SignalState} {signals signals' : List Signal}

/-- Some signals are marked, and no other mark is made or taken up. -/
def Marks (s : SignalState) (signals : List Signal) (s' : SignalState) : Prop :=
  ∀ signal, s'.pending signal = true ↔ s.pending signal = true ∨ signal ∈ signals

theorem Marks.of_eq (h : s'.pending = s.pending) : s.Marks [] s' := by
  intro signal
  rw [h, List.mem_nil_iff, or_false]

theorem Marks.refl (s : SignalState) : s.Marks [] s := .of_eq rfl

theorem Marks.trans (h : s.Marks signals s') (h' : s'.Marks signals' s'') :
    s.Marks (signals ++ signals') s'' := by
  intro signal
  rw [h', h, List.mem_append, or_assoc]

/-- What is heard of the delivery of a signal: the signal, if it is to be taken up later. -/
def heard (s : SignalState) (signal : Signal) : List Signal :=
  match s.dispositions signal with
  | .deferred => [signal]
  | .default | .ignore | .quit | .foreign _ => []

/-- **A signal that is to be taken up later is marked** when it is delivered, and no other one is.
-/
theorem marks_deliver (s : SignalState) (signal : Signal) :
    s.Marks (s.heard signal) (s.deliver signal).2 := by
  unfold heard deliver
  cases s.dispositions signal with
  | deferred =>
    intro other
    show (if other = signal then true else s.pending other) = true ↔ _
    rw [List.mem_singleton]
    split
    · next heq => exact iff_of_true rfl (.inr heq)
    · next hne => exact ⟨.inl, fun h => h.resolve_right hne⟩
  | default | ignore | quit | foreign => exact .of_eq rfl

end SignalState

namespace Process

open SignalState

variable {p p' : Process}

/-! ## Signals -/

/-- What a process hears when a signal acts on it. -/
def heardInAct (p : Process) (signal : Signal) : List Signal := p.signals.heard signal

theorem marks_act (p : Process) (signal : Signal) :
    p.signals.Marks (p.heardInAct signal) (p.act signal).2.signals := by
  rw [signals_act]
  exact marks_deliver p.signals signal

/-- What it hears of a signal that was held back. -/
def heardInRelease (x : Bool × Process) (signal : Signal) : List Signal :=
  if x.2.status = .running then x.2.heardInAct signal else []

theorem marks_release (x : Bool × Process) (signal : Signal) :
    x.2.signals.Marks (heardInRelease x signal) (release x signal).2.signals := by
  unfold heardInRelease release
  split
  · exact marks_act x.2 signal
  · rw [signals_hold]
    exact .refl _

/-- What is heard of signals that come one after the other. -/
def heardInAll {α : Type} (step : α → Signal → α) (heard : α → Signal → List Signal) :
    α → List Signal → List Signal
  | _, [] => []
  | a, signal :: signals => heard a signal ++ heardInAll step heard (step a signal) signals

theorem marks_foldl {α : Type} {step : α → Signal → α} {heard : α → Signal → List Signal}
    {f : α → SignalState}
    (hstep : ∀ a signal, (f a).Marks (heard a signal) (f (step a signal))) (a : α)
    (signals : List Signal) :
    (f a).Marks (heardInAll step heard a signals) (f (signals.foldl step a)) := by
  induction signals generalizing a with
  | nil => exact .refl _
  | cons signal signals ih => exact (hstep a signal).trans (ih _)

/-- What a process hears of a signal that it gets. -/
def heardInDeliver (p : Process) (signal : Signal) : List Signal :=
  match p.status with
  | .running => p.heardInAct signal
  | .ended _ => []
  | .suspended held =>
    if signal = .kill then []
    else if signal = .cont then
      let due := Signal.all.filter fun s => held.contains s && s.defaultEffect != .suspends
      heardInAll release heardInRelease (false, { p with status := .running }) (.cont :: due)
    else []

theorem marks_deliver (p : Process) (signal : Signal) :
    p.signals.Marks (p.heardInDeliver signal) (p.deliver signal).2.signals := by
  unfold heardInDeliver Process.deliver
  cases p.status with
  | running => exact marks_act p signal
  | ended => exact .refl _
  | suspended held =>
    simp only
    split
    · exact .refl _
    · split
      · exact marks_foldl (f := fun x => x.2.signals) marks_release
          (false, { p with status := .running }) _
      · rw [signals_hold]
        exact .refl _

/-- What a process hears when the next arrivals preempt it. -/
def heardInPreempt (p : Process) : List Signal :=
  match p.arrivals with
  | [] => []
  | signals :: arrivals =>
    heardInAll (fun p signal => (p.deliver signal).2) heardInDeliver { p with arrivals } signals

theorem marks_preempt (p : Process) : p.signals.Marks p.heardInPreempt p.preempt.signals := by
  unfold heardInPreempt preempt
  cases p.arrivals with
  | nil => exact .refl _
  | cons signals arrivals =>
    exact marks_foldl (f := fun p => p.signals) marks_deliver { p with arrivals } signals

/-! ## Waiting -/

/-- What a process hears when one thing happens to it. -/
def heardInMeet (p : Process) : Stimulus → List Signal
  | .signal signal => p.heardInDeliver signal
  | .arrive _ | .finish | .hangUp _ => []

theorem marks_meet (p : Process) (stimulus : Stimulus) :
    p.signals.Marks (p.heardInMeet stimulus) (p.meet stimulus).2.signals := by
  cases stimulus with
  | signal signal => exact marks_deliver p signal
  | arrive | finish | hangUp => exact .refl _

/-- What it hears while it waits until it can go on. -/
def heardInAwait {β : Type} (goesOn : Bool → Process → Option (β × Process)) :
    List Stimulus → Process → List Signal
  | [], _ => []
  | stimulus :: coming, p =>
    p.heardInMeet stimulus ++
      let (ran, p) := p.meet stimulus
      let p := { p with coming }
      match p.status with
      | .ended _ => []
      | .suspended _ => heardInAwait goesOn coming p
      | .running =>
        match goesOn ran p with
        | some _ => []
        | none => heardInAwait goesOn coming p

/-- **What was heard while it waited is marked**, if it hears nothing when it goes on. -/
theorem marks_await {β : Type} {goesOn : Bool → Process → Option (β × Process)}
    (hgo : ∀ ran p b p', goesOn ran p = some (b, p') → p'.signals = p.signals)
    (coming : List Stimulus) (p : Process) :
    p.signals.Marks (heardInAwait goesOn coming p) (await goesOn coming p).2.signals := by
  induction coming generalizing p with
  | nil => exact .refl _
  | cons stimulus coming ih =>
    have hmeet : p.signals.Marks (p.heardInMeet stimulus)
        ({ (p.meet stimulus).2 with coming } : Process).signals := marks_meet p stimulus
    unfold heardInAwait await
    simp only
    generalize ({ (p.meet stimulus).2 with coming } : Process) = met at hmeet ⊢
    refine hmeet.trans ?_
    cases (p.meet stimulus).2.status with
    | ended => exact .refl _
    | suspended => exact ih met
    | running =>
      simp only
      cases hsome : goesOn (p.meet stimulus).1 met with
      | some out => exact .of_eq (by rw [hgo _ _ _ _ hsome])
      | none => exact ih met

/-- What a process hears while it waits until it is not suspended. -/
def heardInResume (p : Process) : List Signal :=
  if p.status = .running then [] else heardInAwait (fun _ p => some ((), p)) p.coming p

theorem marks_resume (p : Process) : p.signals.Marks p.heardInResume p.resume.signals := by
  unfold heardInResume resume
  split
  · exact .refl _
  · refine marks_await (fun ran p b p' h => ?_) _ p
    cases h
    rfl

/-- What it hears while it waits until it is asked to quit. -/
def heardInAwaitQuit (p : Process) : List Signal :=
  if p.signals.quitRequest.isSome then []
  else
    heardInAwait (fun _ p => if p.signals.quitRequest.isSome then some ((), p) else none) p.coming p

theorem marks_awaitQuit (p : Process) :
    p.signals.Marks p.heardInAwaitQuit p.awaitQuit.signals := by
  unfold heardInAwaitQuit awaitQuit
  split
  · exact .refl _
  · refine marks_await (fun ran p b p' h => ?_) _ p
    split at h <;> cases h
    rfl

/-- What it hears while it waits for nothing. -/
def heardInHang (p : Process) : List Signal :=
  heardInAwait (fun _ _ => (none : Option (Unit × Process))) p.coming p

theorem marks_hang (p : Process) : p.signals.Marks p.heardInHang p.hang.signals :=
  marks_await (fun _ _ _ _ h => by cases h) _ p

/-! ## Reading -/

/-- What a process hears while it reads, once it has been preempted. -/
def heardInReadOn (p : Process) (n : Nat) : List Signal :=
  match p.status with
  | .ended _ => []
  | .suspended _ => heardInAwait (readAgain n) p.coming p
  | .running =>
    match p.readNow n with
    | some _ => []
    | none => heardInAwait (readAgain n) p.coming p

theorem marks_readOn (p : Process) (n : Nat) :
    p.signals.Marks (p.heardInReadOn n) (p.readOn n).2.signals := by
  have hwait : p.signals.Marks (heardInAwait (readAgain n) p.coming p)
      (await (readAgain n) p.coming p).2.signals :=
    marks_await (fun _ _ _ _ h => signals_readAgain h) _ p
  unfold heardInReadOn readOn
  cases p.status with
  | ended => exact .refl _
  | suspended => exact hwait
  | running =>
    simp only
    cases hnow : p.readNow n with
    | some out => exact .of_eq (by rw [signals_readNow hnow])
    | none => exact hwait

/-- What it hears while it reads. -/
def heardInRead (p : Process) (n : Nat) : List Signal :=
  p.heardInPreempt ++ p.preempt.heardInReadOn n

theorem marks_read (p : Process) (n : Nat) :
    p.signals.Marks (p.heardInRead n) (p.read n).2.signals := by
  rw [read_eq]
  exact (marks_preempt p).trans (marks_readOn p.preempt n)

/-- What it hears while it reads the next frame from a channel, within a number of reads. -/
def heardWithin : Nat → Channel → Process → List Signal
  | 0, _, _ => []
  | reads + 1, c, p =>
    match c.settled? with
    | some _ => []
    | none =>
      p.heardInRead Channel.chunkSize ++
        match p.read Channel.chunkSize with
        | (none, _) => []
        | (some r, p) =>
          match c.absorb r with
          | (some _, _) => []
          | (none, c) => heardWithin reads c p

theorem marks_within (reads : Nat) (c : Channel) (p : Process) :
    p.signals.Marks (heardWithin reads c p)
      (Channel.nextFrameWithin transport reads c p).2.2.signals := by
  induction reads generalizing c p with
  | zero => exact .refl _
  | succ reads ih =>
    unfold heardWithin Channel.nextFrameWithin
    cases c.settled? with
    | some answer => exact .refl _
    | none =>
      have hread := marks_read p Channel.chunkSize
      simp only [transport]
      generalize p.read Channel.chunkSize = out at hread ⊢
      obtain ⟨r, p'⟩ := out
      refine hread.trans ?_
      cases r with
      | none => exact .refl _
      | some r =>
        simp only
        generalize c.absorb r = next
        obtain ⟨e, c'⟩ := next
        cases e with
        | some e => exact .refl _
        | none => exact ih c' p'

/-- What a process hears while it reads the next frame from a channel. -/
def heardInFrame (p : Process) (c : Channel) : List Signal := heardWithin (p.inflow + 2) c p

/-- **What was heard in a call for the next frame is marked.** -/
theorem marks_frame (p : Process) (c : Channel) :
    p.signals.Marks (p.heardInFrame c) (Channel.nextFrame transport c p).2.2.signals :=
  marks_within _ c p

end Process

end Overseer
