import Overseer.Process.Lemmas

/-!
# What happens to a process

A `Course` leads from one state of a process to a later one. On its way the process changes what is
its own, reads from its inbox and takes up its marks; signals act on it while it runs; it asks
itself to quit; and what was to come from outside comes. What it cannot do is take up a request to
quit or bind its signals anew.

A course leaves `Note`s, in order: they are all that it does to the state of the signals
(`Course.signals_eq`). A request to quit shuts the inbox if it is the inbox that is to be shut
(`Course.shut`), and nothing opens it again. All that the process does by itself is a course: being
preempted, waiting and reading.
-/

namespace Overseer

/-- What a process finds out about its signals. -/
inductive Note where
  /-- It is asked to quit. -/
  | request (signal : Signal)
  /-- A signal is marked. -/
  | mark (signal : Signal)
  /-- The marks are taken up. -/
  | collect
  deriving DecidableEq

/-- The requests to quit among some notes. -/
def Note.requests (notes : List Note) : List Signal :=
  notes.filterMap fun
    | request signal => some signal
    | mark _ | collect => none

@[simp] theorem Note.requests_append (notes notes' : List Note) :
    requests (notes ++ notes') = requests notes ++ requests notes' :=
  List.filterMap_append

namespace SignalState

/-- What a note stands for. -/
def take (s : SignalState) : Note → SignalState
  | .request signal => (s.requestQuit signal).2
  | .mark signal => { s with pending := mark s.pending signal true }
  | .collect => s.takePending.2

/-- What the delivery of a signal is to be noted as. -/
def notes (s : SignalState) (signal : Signal) : List Note :=
  match s.dispositions signal with
  | .default | .ignore | .foreign _ => []
  | .quit => [.request signal]
  | .deferred => [.mark signal]

/-- The delivery of a signal does what is noted of it. -/
theorem deliver_eq (s : SignalState) (signal : Signal) :
    (s.deliver signal).2 = (s.notes signal).foldl take s := by
  unfold deliver notes
  cases s.dispositions signal <;> rfl

/-- Notes do not change what is shut when the process is asked to quit. -/
theorem foldl_take_wakeup (s : SignalState) (notes : List Note) :
    (notes.foldl take s).wakeup = s.wakeup := by
  induction notes generalizing s with
  | nil => rfl
  | cons note notes ih =>
    rw [List.foldl_cons, ih]
    cases note <;> rfl

/-- **The last request counts.** -/
theorem foldl_take_quitRequest (s : SignalState) (notes : List Note) :
    (notes.foldl take s).quitRequest = (Note.requests notes).getLast?.or s.quitRequest := by
  induction notes generalizing s with
  | nil => rfl
  | cons note notes ih =>
    rw [List.foldl_cons, ih]
    cases note with
    | request signal =>
      rw [show Note.requests (.request signal :: notes) = signal :: Note.requests notes from rfl,
        List.getLast?_cons]
      cases (Note.requests notes).getLast? <;> rfl
    | mark _ | collect => rfl

end SignalState

namespace Process

/-- What a process can change of itself: everything but its signals and its end of the pair. -/
structure Keeps (p p' : Process) : Prop where
  signals_eq : p'.signals = p.signals
  socket_eq : p'.socket = p.socket
  inbox_eq : p'.inbox = p.inbox
  /-- What is to come comes, or is forgotten. -/
  coming_isSuffix : p'.coming <:+ p.coming

/-- What happens to a process, and the notes that are left of it. -/
inductive Course : Process → List Note → Process → Prop
  /-- It changes what is its own. -/
  | own {p p' : Process} (h : p.Keeps p') : Course p [] p'
  /-- It takes up its marks. -/
  | collect (p : Process) : Course p [.collect] { p with signals := p.signals.takePending.2 }
  /-- A signal acts on it while it runs. -/
  | act {p : Process} (signal : Signal) (hrun : p.status = .running) :
      Course p (p.signals.notes signal) (p.act signal).2
  /-- It asks itself to quit. -/
  | request (p : Process) (signal : Signal) : Course p [.request signal] (p.requestQuit signal)
  /-- Something else comes from outside. -/
  | outside {p : Process} {stimulus : Stimulus} {coming : List Stimulus}
      (hcoming : p.coming = stimulus :: coming) (hs : ∀ signal, stimulus ≠ .signal signal) :
      Course p [] { (p.meet stimulus).2 with coming }
  /-- It reads from its inbox. -/
  | read {p : Process} {n : Nat} {r : Reading} {inbox : Pipe}
      (hread : p.inbox.read false n = (some r, inbox)) : Course p [] { p with inbox }
  | trans {p p' p'' : Process} {notes notes' : List Note} (h : Course p notes p')
      (h' : Course p' notes' p'') : Course p (notes ++ notes') p''

variable {p p' : Process} {notes : List Note}

/-- Nothing happens. -/
theorem Course.refl (p : Process) : Course p [] p :=
  .own ⟨rfl, rfl, rfl, List.suffix_refl _⟩

/-! ## What a course does -/

@[simp] theorem signals_shutRead (p : Process) (fd : Option Int) :
    (p.shutRead fd).signals = p.signals := by
  unfold shutRead
  split <;> rfl

@[simp] theorem socket_shutRead (p : Process) (fd : Option Int) :
    (p.shutRead fd).socket = p.socket := by
  unfold shutRead
  split <;> rfl

/-- An inbox that is shut stays so. -/
theorem shut_shutRead {fd : Option Int} (h : p.inbox.shut = true ∨ fd = some p.socket) :
    (p.shutRead fd).inbox.shut = true := by
  unfold shutRead
  split
  · rfl
  · next hfd => exact h.resolve_right hfd

/-- A signal that acts does to the signals what its delivery does. -/
theorem signals_act (p : Process) (signal : Signal) :
    (p.act signal).2.signals = (p.signals.deliver signal).2 := by
  unfold act
  split <;> next h => simp [h]

@[simp] theorem socket_act (p : Process) (signal : Signal) :
    (p.act signal).2.socket = p.socket := by
  unfold act
  split <;> simp

/-- A read does not open an inbox. -/
theorem shut_of_read {inbox inbox' : Pipe} {n : Nat} {r : Option Reading}
    (h : inbox.read false n = (r, inbox')) : inbox'.shut = inbox.shut := by
  unfold Pipe.read at h
  split at h
  · split at h
    · cases h
      rfl
    · split at h <;> cases h <;> rfl
  · cases h
    rfl

/-- What comes from outside and is no signal leaves the signals alone. -/
theorem meet_outside {stimulus : Stimulus} (hs : ∀ signal, stimulus ≠ .signal signal) :
    (p.meet stimulus).2.signals = p.signals ∧ (p.meet stimulus).2.socket = p.socket ∧
      (p.inbox.shut = true → (p.meet stimulus).2.inbox.shut = true) := by
  cases stimulus with
  | arrive segment =>
    refine ⟨rfl, rfl, fun hshut => ?_⟩
    show (p.inbox.send segment).2.shut = true
    unfold Pipe.send
    rw [hshut]
    split <;> exact hshut
  | finish | hangUp => exact ⟨rfl, rfl, fun _ => rfl⟩
  | signal signal => exact absurd rfl (hs signal)

/-- **The notes tell all that happens to the signals.** -/
theorem Course.signals_eq (h : Course p notes p') :
    p'.signals = notes.foldl SignalState.take p.signals := by
  induction h with
  | own h => exact h.signals_eq
  | collect | request => simp [requestQuit, SignalState.take]
  | act signal => rw [signals_act, SignalState.deliver_eq]
  | outside _ hs => exact (meet_outside hs).1
  | read => rfl
  | trans _ _ ih ih' => rw [ih', ih, List.foldl_append]

/-- A process keeps its end of the pair. -/
theorem Course.socket_eq (h : Course p notes p') : p'.socket = p.socket := by
  induction h with
  | own h => exact h.socket_eq
  | collect | read => rfl
  | act signal => exact socket_act _ signal
  | request p signal => exact socket_shutRead ..
  | outside _ hs => exact (meet_outside hs).2.1
  | trans _ _ ih ih' => rw [ih', ih]

/-- What is shut when the process is asked to quit stays what it is. -/
theorem Course.wakeup_eq (h : Course p notes p') : p'.signals.wakeup = p.signals.wakeup := by
  rw [h.signals_eq, SignalState.foldl_take_wakeup]

/-- The last request that a course has brought counts. -/
theorem Course.quitRequest_eq (h : Course p notes p') :
    p'.signals.quitRequest = (Note.requests notes).getLast?.or p.signals.quitRequest := by
  rw [h.signals_eq, SignalState.foldl_take_quitRequest]

/-- A signal that acts does not open the inbox, and one that asks the process to quit shuts it. -/
theorem shut_act {signal : Signal} (h : p.inbox.shut = true ∨
    Note.requests (p.signals.notes signal) ≠ [] ∧ p.signals.wakeup = some p.socket) :
    (p.act signal).2.inbox.shut = true := by
  unfold act SignalState.deliver
  unfold SignalState.notes at h
  cases hd : p.signals.dispositions signal with
  | default =>
    rw [hd] at h
    have hshut := h.resolve_right fun h => h.1 rfl
    cases signal.defaultEffect <;> exact hshut
  | ignore =>
    rw [hd] at h
    exact h.resolve_right fun h => h.1 rfl
  | quit => exact shut_shutRead (h.imp_right And.right)
  | deferred | foreign =>
    rw [hd] at h
    exact shut_shutRead (.inl (h.resolve_right fun h => h.1 rfl))

/-- **A request to quit shuts the inbox** if it is the inbox that is registered, and an inbox that
is shut stays so. -/
theorem Course.shut (h : Course p notes p') (hshut : p.inbox.shut = true ∨
    Note.requests notes ≠ [] ∧ p.signals.wakeup = some p.socket) : p'.inbox.shut = true := by
  induction h with
  | own h =>
    rw [h.inbox_eq]
    exact hshut.resolve_right fun h => h.1 rfl
  | collect => exact hshut.resolve_right fun h => h.1 rfl
  | act signal => exact shut_act hshut
  | request p signal => exact shut_shutRead (hshut.imp_right And.right)
  | outside _ hs => exact (meet_outside hs).2.2 (hshut.resolve_right fun h => h.1 rfl)
  | @read p n r inbox hread =>
    have hp : p.inbox.shut = true := hshut.resolve_right fun h => h.1 rfl
    show inbox.shut = true
    rw [shut_of_read hread, hp]
  | @trans p₀ p₁ p₂ notes notes' h _ ih ih' =>
    rcases hshut with hshut | ⟨hnotes, hwakeup⟩
    · exact ih' (.inl (ih (.inl hshut)))
    · rw [Note.requests_append] at hnotes
      by_cases hfirst : Note.requests notes = []
      · rw [hfirst, List.nil_append] at hnotes
        exact ih' (.inr ⟨hnotes, by rw [h.wakeup_eq, h.socket_eq, hwakeup]⟩)
      · exact ih' (.inl (ih (.inr ⟨hfirst, hwakeup⟩)))

/-- A course adds nothing to what can flow in. -/
theorem Course.inflow_le (h : Course p notes p') : p'.inflow ≤ p.inflow := by
  induction h with
  | @own p p' h =>
    obtain ⟨front, hfront⟩ := h.coming_isSuffix
    rw [inflow, inflow, h.inbox_eq, ← hfront, total_append]
    omega
  | collect => exact Nat.le_refl _
  | act signal => exact Nat.le_of_eq (inflow_act _ signal)
  | request p signal =>
    have heq : (p.requestQuit signal).inflow = p.inflow := by simp [requestQuit, inflow]
    exact Nat.le_of_eq heq
  | @outside p stimulus coming hcoming _ =>
    have hsize := (meet_keeps p stimulus).1
    show (p.meet stimulus).2.inbox.size + total weight coming ≤
      p.inbox.size + total weight p.coming
    rw [hcoming, total_cons]
    omega
  | @read p n r inbox hread => exact Nat.add_le_add_right (Pipe.size_read_le hread) _
  | trans _ _ ih ih' => exact Nat.le_trans ih' ih

/-! ## What is a course -/

/-- A process changes whether it goes on. -/
theorem Course.setStatus (p : Process) (status : ProcessStatus) : Course p [] { p with status } :=
  .own ⟨rfl, rfl, rfl, List.suffix_refl _⟩

/-- What is to come next is forgotten, or has come already. -/
theorem Course.setComing {coming : List Stimulus} (h : coming <:+ p.coming) :
    Course p [] { p with coming } :=
  .own ⟨rfl, rfl, rfl, h⟩

theorem Course.hold (p : Process) (signal : Signal) : Course p [] (p.hold signal) := by
  unfold Process.hold
  split
  · exact .setStatus p _
  · exact .refl p

/-- A signal that was held back acts or is held back again. -/
theorem Course.release (x : Bool × Process) (signal : Signal) :
    ∃ notes, Course x.2 notes (Process.release x signal).2 := by
  unfold Process.release
  split
  · next hrun => exact ⟨_, .act signal hrun⟩
  · exact ⟨_, .hold x.2 signal⟩

theorem Course.foldl_release (x : Bool × Process) (signals : List Signal) :
    ∃ notes, Course x.2 notes (signals.foldl Process.release x).2 := by
  induction signals generalizing x with
  | nil => exact ⟨_, .refl _⟩
  | cons signal signals ih =>
    obtain ⟨notes, h⟩ := Course.release x signal
    obtain ⟨notes', h'⟩ := ih (Process.release x signal)
    exact ⟨_, h.trans h'⟩

/-- A signal arrives. -/
theorem Course.deliver (p : Process) (signal : Signal) :
    ∃ notes, Course p notes (p.deliver signal).2 := by
  unfold Process.deliver
  split
  · next hrun => exact ⟨_, .act signal hrun⟩
  · exact ⟨_, .refl p⟩
  · split
    · exact ⟨_, .setStatus p _⟩
    · split
      · obtain ⟨notes, h⟩ := Course.foldl_release (false, { p with status := .running }) _
        exact ⟨_, (Course.setStatus p .running).trans h⟩
      · exact ⟨_, .hold p signal⟩

/-- The process is preempted. -/
theorem Course.preempt (p : Process) : ∃ notes, Course p notes p.preempt := by
  have hall : ∀ (signals : List Signal) (p : Process),
      ∃ notes, Course p notes (signals.foldl (fun p s => (p.deliver s).2) p) := by
    intro signals
    induction signals with
    | nil => exact fun p => ⟨_, .refl p⟩
    | cons signal signals ih =>
      intro p
      obtain ⟨notes, h⟩ := Course.deliver p signal
      obtain ⟨notes', h'⟩ := ih (p.deliver signal).2
      exact ⟨_, h.trans h'⟩
  unfold Process.preempt
  split
  · exact ⟨_, .refl p⟩
  · next signals arrivals _ =>
    have hown : Course p [] { p with arrivals } := .own ⟨rfl, rfl, rfl, List.suffix_refl _⟩
    obtain ⟨notes, h⟩ := hall signals { p with arrivals }
    exact ⟨_, hown.trans h⟩

/-- The next thing happens. -/
theorem Course.meet {stimulus : Stimulus} {coming : List Stimulus}
    (h : p.coming = stimulus :: coming) :
    ∃ notes, Course p notes { (p.meet stimulus).2 with coming } := by
  cases stimulus with
  | signal signal =>
    obtain ⟨notes, hdeliver⟩ := Course.deliver p signal
    refine ⟨_, hdeliver.trans (.setComing ?_)⟩
    rw [(deliver_keeps p signal).2, h]
    exact List.suffix_cons ..
  | arrive | finish | hangUp => exact ⟨_, .outside h nofun⟩

/-- The process waits, and goes on in a way that is a course. -/
theorem Course.await {β : Type} {goesOn : Bool → Process → Option (β × Process)}
    (hgo : ∀ ran p b p', goesOn ran p = some (b, p') → ∃ notes, Course p notes p')
    {coming : List Stimulus} (h : p.coming = coming) :
    ∃ notes, Course p notes (Process.await goesOn coming p).2 := by
  induction coming generalizing p with
  | nil => exact ⟨_, .setComing (List.nil_suffix)⟩
  | cons stimulus coming ih =>
    obtain ⟨notes, hmeet⟩ := Course.meet h
    unfold Process.await
    simp only
    split
    · exact ⟨_, hmeet⟩
    · obtain ⟨notes', hrest⟩ := ih (p := { (p.meet stimulus).2 with coming }) rfl
      exact ⟨_, hmeet.trans hrest⟩
    · split
      · next hsome =>
        obtain ⟨notes', hrest⟩ := hgo _ _ _ _ hsome
        exact ⟨_, hmeet.trans hrest⟩
      · obtain ⟨notes', hrest⟩ := ih (p := { (p.meet stimulus).2 with coming }) rfl
        exact ⟨_, hmeet.trans hrest⟩

theorem Course.readNow {n : Nat} {r : Reading} (h : p.readNow n = some (r, p')) :
    Course p [] p' := by
  unfold Process.readNow at h
  split at h
  · next hread =>
    cases h
    exact .read hread
  · cases h

theorem Course.readAgain {ran : Bool} {n : Nat} {r : Reading}
    (h : Process.readAgain n ran p = some (r, p')) : Course p [] p' := by
  unfold Process.readAgain at h
  split at h
  · cases h
    exact .refl p
  · exact .readNow h

/-! ## Reading -/

/-- A read, once the process has been preempted. -/
def readOn (p : Process) (n : Nat) : Option Reading × Process :=
  match p.status with
  | .ended _ => (none, p)
  | .suspended _ => await (readAgain n) p.coming p
  | .running =>
    match p.readNow n with
    | some (r, p) => (some r, p)
    | none => await (readAgain n) p.coming p

theorem read_eq (p : Process) (n : Nat) : p.read n = p.preempt.readOn n := rfl

/-- A read is a course. -/
theorem Course.readOn (p : Process) (n : Nat) : ∃ notes, Course p notes (p.readOn n).2 := by
  have hgo : ∀ ran (p : Process) r p', Process.readAgain n ran p = some (r, p') →
      ∃ notes, Course p notes p' := fun _ _ _ _ h => ⟨_, .readAgain h⟩
  unfold Process.readOn
  split
  · exact ⟨_, .refl p⟩
  · exact Course.await hgo rfl
  · split
    · next hnow => exact ⟨_, .readNow hnow⟩
    · exact Course.await hgo rfl

theorem Course.ofRead (p : Process) (n : Nat) : ∃ notes, Course p notes (p.read n).2 := by
  obtain ⟨notes, h⟩ := Course.preempt p
  obtain ⟨notes', h'⟩ := Course.readOn p.preempt n
  exact ⟨_, h.trans h'⟩

/-- **A read of an inbox that is shut does not wait**: what is queued is followed by the end. -/
theorem readNow_of_shut (h : p.inbox.shut = true) (n : Nat) : ∃ out, p.readNow n = some out := by
  have hread : ∃ r inbox, p.inbox.read false n = (some r, inbox) := by
    unfold Pipe.read
    cases p.inbox.queue with
    | nil =>
      cases p.inbox.reset with
      | true => exact ⟨_, _, rfl⟩
      | false =>
        rw [h]
        exact ⟨_, _, rfl⟩
    | cons segment queue => exact ⟨_, _, rfl⟩
  obtain ⟨r, inbox, hread⟩ := hread
  rw [readNow, hread]
  exact ⟨_, rfl⟩

/-- A process that waits in vain while it runs waits with an open inbox. -/
theorem await_in_vain {coming : List Stimulus} {n : Nat}
    (hopen : p.status = .running → p.inbox.shut = false)
    (h : await (readAgain n) coming p = (none, p')) :
    p'.status = .running → p'.inbox.shut = false := by
  induction coming generalizing p with
  | nil =>
    cases h
    exact hopen
  | cons stimulus coming ih =>
    unfold await at h
    simp only at h
    split at h
    · next hended =>
      cases h
      intro hrun
      rw [hrun] at hended
      cases hended
    · next hsuspended =>
      refine ih ?_ h
      intro hrun
      rw [hrun] at hsuspended
      cases hsuspended
    · split at h
      · cases h
      · next hnone =>
        refine ih (fun _ => Bool.eq_false_iff.2 fun hshut => ?_) h
        -- with its inbox shut it would have had an answer
        obtain ⟨out, hnow⟩ := readNow_of_shut hshut n
        unfold readAgain at hnone
        rw [hnow] at hnone
        split at hnone <;> cases hnone

/-- **A read is in vain only while the inbox is open**, or if the process does not run. -/
theorem readOn_in_vain {n : Nat} (h : p.readOn n = (none, p')) (hshut : p'.inbox.shut = true) :
    p'.status ≠ .running := by
  intro hrun
  unfold readOn at h
  split at h
  · next hended =>
    cases h
    rw [hrun] at hended
    cases hended
  · next hsuspended =>
    have hopen := await_in_vain (fun hrun => by rw [hrun] at hsuspended; cases hsuspended) h hrun
    rw [hshut] at hopen
    cases hopen
  · split at h
    · cases h
    · next hnone =>
      have hopen := await_in_vain (fun _ => Bool.eq_false_iff.2 fun hshut => by
        obtain ⟨out, hnow⟩ := readNow_of_shut hshut n
        rw [hnow] at hnone
        cases hnone) h hrun
      rw [hshut] at hopen
      cases hopen

end Process

end Overseer
