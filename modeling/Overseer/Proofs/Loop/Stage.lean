import Overseer.Loop.Serve
import Overseer.Proofs.Loop.Loyalty

/-!
# The stages of a loop

`Loop.run` is one function from the world before to the world after. What happens in between is a
sequence of `Stage`s, and `Stage.next` goes from one to the next: the setup, the looks at the
buffer, the reads, the handlers, the callbacks and the looks for a reason to end. It is made of the
functions that the loop is made of. What one step can do is said once, by `Leads` (`next_leads`);
the stages lead to one end only (`Reaches.end_unique`).

The code of a server may do anything; `Loyally` says that it is loyal where it runs.
-/

namespace Overseer.Loop

variable {σ : Type}

/-- Where a server stands from its setup to the end of its loop, and the world there. -/
inductive Stage (σ : Type) where
  /-- The setup is about to run. -/
  | setup (w : World σ)
  /-- The next message is to be received; the channel looks at its buffer. -/
  | receiving (w : World σ)
  /-- The channel is about to read; signals may arrive. -/
  | poised (w : World σ)
  /-- The channel reads. -/
  | reading (w : World σ)
  /-- Receiving has come to an end. -/
  | received (r : Reception Envelope) (w : World σ)
  /-- A message is about to be handled. -/
  | handling (e : Envelope) (w : World σ)
  /-- The marks are about to be taken up. -/
  | deferring (w : World σ)
  /-- The callbacks of these signals are about to run. -/
  | calling (signals : List Signal) (w : World σ)
  /-- The loop is about to look whether it is to end. -/
  | checking (w : World σ)
  /-- The loop has ended. -/
  | left (result : EStateM.Result Halt (World σ) LoopExit)

namespace Stage

/-- The world at a stage. -/
def world : Stage σ → World σ
  | setup w | receiving w | poised w | reading w | received _ w | handling _ w | deferring w
  | calling _ w | checking w | left (.ok _ w) | left (.error _ w) => w

/-- Whether the loop has ended. -/
def isLeft : Stage σ → Bool
  | left _ => true
  | _ => false

/-- The stage after code has run. -/
def andThen {α : Type} (result : EStateM.Result Halt (World σ) α) (stage : α → World σ → Stage σ) :
    Stage σ :=
  match result with
  | .ok a w => stage a w
  | .error halt w => left (.error halt w)

end Stage

section
variable (srv : Server σ) (table : SignalTable (Callback σ))

/-- The next stage. The last one is its own. -/
def Stage.next : Stage σ → Stage σ
  | setup w => andThen (srv.setup w) fun _ => receiving
  | receiving w =>
    match w.context.channel.settled? with
    | some (answer, channel) => received answer.toEnvelope (w.holding channel w.process)
    | none => poised w
  | poised w => reading (w.holding w.context.channel w.process.preempt)
  | reading w =>
    match w.process.readOn Channel.chunkSize with
    | (none, process) => received .waiting (w.holding w.context.channel process)
    | (some r, process) =>
      match w.context.channel.absorb r with
      | (some e, channel) => received (.failed e) (w.holding channel process)
      | (none, channel) => receiving (w.holding channel process)
  | received (.item e) w => handling e w
  | received .ended w =>
    andThen (pendingQuit w) fun request w =>
      left (.ok (request.elim .peerClosed .signalled) w)
  | received (.failed .interrupted) w => deferring w
  | received (.failed e) w =>
    andThen (pendingQuit w) fun request w =>
      match request with
      | some signal => left (.ok (.signalled signal) w)
      | none => left (.error (.failed (.channel e)) w)
  | received .waiting w => left (.error (Code.haltOf w.process) w)
  | handling e w => andThen (dispatch srv.handlers e w) fun _ => deferring
  | deferring w =>
    if w.context.managed then andThen (Code.takePending w) calling else calling [] w
  | calling [] w => checking w
  | calling (signal :: signals) w => andThen (callBack table signal w) fun _ => calling signals
  | checking w =>
    andThen (checkQuit w) fun exit w =>
      match exit with
      | some exit => left (.ok exit w)
      | none => receiving w
  | left result => left result

/-- The stages that come after one, itself included. -/
inductive Reaches (x : Stage σ) : Stage σ → Prop
  | refl : Reaches x x
  | next {y : Stage σ} (h : Reaches x y) : Reaches x (y.next srv table)

end

variable {srv : Server σ} {table : SignalTable (Callback σ)} {x y z : Stage σ}

theorem Reaches.trans (h : Reaches srv table x y) (h' : Reaches srv table y z) :
    Reaches srv table x z := by
  induction h' with
  | refl => exact h
  | next _ ih => exact ih.next

/-- What is reached is the stage itself or comes after the next one. -/
theorem Reaches.cases_head (h : Reaches srv table x y) :
    x = y ∨ Reaches srv table (x.next srv table) y := by
  induction h with
  | refl => exact .inl rfl
  | next h ih =>
    rcases ih with rfl | ih
    · exact .inr .refl
    · exact .inr ih.next

/-- Of two stages that are reached one comes after the other. -/
theorem Reaches.linear (h : Reaches srv table x y) (h' : Reaches srv table x z) :
    Reaches srv table y z ∨ Reaches srv table z y := by
  induction h' with
  | refl => exact .inr h
  | next _ ih =>
    rcases ih with ih | ih
    · exact .inl ih.next
    · rcases ih.cases_head with rfl | ih
      · exact .inl Reaches.refl.next
      · exact .inr ih

/-- Nothing comes after the end. -/
theorem Reaches.of_left {result : EStateM.Result Halt (World σ) LoopExit}
    (h : Reaches srv table (.left result) y) : y = .left result := by
  induction h with
  | refl => rfl
  | next _ ih =>
    rw [ih]
    rfl

/-- **There is one end.** -/
theorem Reaches.end_unique {r r' : EStateM.Result Halt (World σ) LoopExit}
    (h : Reaches srv table x (.left r)) (h' : Reaches srv table x (.left r')) : r = r' := by
  rcases h.linear h' with h | h
  · exact (Stage.left.inj h.of_left).symm
  · exact Stage.left.inj h.of_left

/-! ## What a step does -/

section
variable {w : World σ}

/-- Looking for a request takes it up if the signals are managed. -/
theorem pendingQuit_apply (w : World σ) :
    pendingQuit w =
      if w.context.managed then
        .ok w.process.signals.quitRequest
          (w.holding w.context.channel { w.process with signals := w.process.signals.takeQuit.2 })
      else .ok none w := by
  unfold pendingQuit
  rw [Code.get_bind]
  cases w.context.managed <;> rfl

theorem pendingQuit_ok (w : World σ) : ∃ request w', pendingQuit w = .ok request w' := by
  rw [pendingQuit_apply]
  split <;> exact ⟨_, _, rfl⟩

/-- Without a request there is nothing to take up. -/
theorem takeQuit_of_none {s : SignalState} (h : s.quitRequest = none) : s.takeQuit.2 = s := by
  obtain ⟨dispositions, pending, quitRequest, wakeup⟩ := s
  cases h
  rfl

/-- Without a request the loop is told to quit, or goes on. -/
theorem checkQuit_of_none (h : w.context.managed = true → w.process.signals.quitRequest = none) :
    checkQuit w = .ok (if w.context.done then some .quit else none) w := by
  have hpending : pendingQuit w = .ok none w := by
    rw [pendingQuit_apply]
    split
    · next hmanaged =>
      rw [takeQuit_of_none (h hmanaged), h hmanaged]
      rfl
    · rfl
  unfold checkQuit
  rw [Code.bind_apply, hpending]
  rfl

/-- A request ends the loop. -/
theorem checkQuit_of_some {signal : Signal} (hmanaged : w.context.managed = true)
    (h : w.process.signals.quitRequest = some signal) :
    ∃ w', checkQuit w = .ok (some (.signalled signal)) w' := by
  unfold checkQuit
  rw [Code.bind_apply, pendingQuit_apply, if_pos hmanaged, h]
  exact ⟨_, rfl⟩

theorem checkQuit_ok (w : World σ) : ∃ exit w', checkQuit w = .ok exit w' := by
  obtain ⟨request, w', h⟩ := pendingQuit_ok w
  unfold checkQuit
  rw [Code.bind_apply, h]
  cases request <;> exact ⟨_, _, rfl⟩

/-- A loop that goes on after a look has found nothing, and changed nothing. -/
theorem checkQuit_none {w' : World σ} (h : checkQuit w = .ok none w') :
    w' = w ∧ (w.context.managed = true → w.process.signals.quitRequest = none) := by
  have hnone : w.context.managed = true → w.process.signals.quitRequest = none := by
    intro hmanaged
    cases hrequest : w.process.signals.quitRequest with
    | none => rfl
    | some signal =>
      obtain ⟨w'', hsome⟩ := checkQuit_of_some hmanaged hrequest
      rw [hsome] at h
      cases h
  refine ⟨?_, hnone⟩
  rw [checkQuit_of_none hnone] at h
  injection h with _ hw
  exact hw.symm

end

section
variable (srv : Server σ) (table : SignalTable (Callback σ))

/-- What one step does. A look for a request does not fail, and changes nothing if it finds none and
the loop goes on. -/
inductive Leads : Stage σ → Stage σ → Prop
  | prepared {w w' : World σ} (h : srv.setup w = .ok () w') : Leads (.setup w) (.receiving w')
  | answered {w : World σ} {answer : Reception (Frame × Option Descriptor)} {channel : Channel}
      (h : w.context.channel.settled? = some (answer, channel)) :
      Leads (.receiving w) (.received answer.toEnvelope (w.holding channel w.process))
  | unanswered {w : World σ} (h : w.context.channel.settled? = none) :
      Leads (.receiving w) (.poised w)
  | preempted (w : World σ) :
      Leads (.poised w) (.reading (w.holding w.context.channel w.process.preempt))
  | dry {w : World σ} {process : Process}
      (hread : w.process.readOn Channel.chunkSize = (none, process)) :
      Leads (.reading w) (.received .waiting (w.holding w.context.channel process))
  | broken {w : World σ} {r : Reading} {process : Process} {e : ChannelError} {channel : Channel}
      (hread : w.process.readOn Channel.chunkSize = (some r, process))
      (habsorb : w.context.channel.absorb r = (some e, channel)) :
      Leads (.reading w) (.received (.failed e) (w.holding channel process))
  | onward {w : World σ} {r : Reading} {process : Process} {channel : Channel}
      (hread : w.process.readOn Channel.chunkSize = (some r, process))
      (habsorb : w.context.channel.absorb r = (none, channel)) :
      Leads (.reading w) (.receiving (w.holding channel process))
  | item (e : Envelope) (w : World σ) : Leads (.received (.item e) w) (.handling e w)
  | interrupted (w : World σ) : Leads (.received (.failed .interrupted) w) (.deferring w)
  | closed {w w' : World σ} {request : Option Signal} (h : pendingQuit w = .ok request w') :
      Leads (.received .ended w) (.left (.ok (request.elim .peerClosed .signalled) w'))
  | excused {w w' : World σ} {e : ChannelError} {signal : Signal} (he : e ≠ .interrupted)
      (h : pendingQuit w = .ok (some signal) w') :
      Leads (.received (.failed e) w) (.left (.ok (.signalled signal) w'))
  | failed {w w' : World σ} {e : ChannelError} (he : e ≠ .interrupted)
      (h : pendingQuit w = .ok none w') :
      Leads (.received (.failed e) w) (.left (.error (.failed (.channel e)) w'))
  | waits (w : World σ) :
      Leads (.received .waiting w) (.left (.error (Code.haltOf w.process) w))
  | handled {w w' : World σ} {e : Envelope} (h : dispatch srv.handlers e w = .ok () w') :
      Leads (.handling e w) (.deferring w')
  | collected {w : World σ} (h : w.context.managed = true) :
      Leads (.deferring w) (.calling w.process.signals.takePending.1
        (w.holding w.context.channel
          { w.process with signals := w.process.signals.takePending.2 }))
  | unmanaged {w : World σ} (h : w.context.managed = false) : Leads (.deferring w) (.calling [] w)
  | called {w w' : World σ} {signal : Signal} {signals : List Signal}
      (h : callBack table signal w = .ok () w') :
      Leads (.calling (signal :: signals) w) (.calling signals w')
  | looks (w : World σ) : Leads (.calling [] w) (.checking w)
  | again {w : World σ} (h : checkQuit w = .ok none w) : Leads (.checking w) (.receiving w)
  | stops {w w' : World σ} {exit : LoopExit} (h : checkQuit w = .ok (some exit) w') :
      Leads (.checking w) (.left (.ok exit w'))
  | setupHalts {w w' : World σ} {halt : Halt} (h : srv.setup w = .error halt w') :
      Leads (.setup w) (.left (.error halt w'))
  | handlingHalts {w w' : World σ} {e : Envelope} {halt : Halt}
      (h : dispatch srv.handlers e w = .error halt w') :
      Leads (.handling e w) (.left (.error halt w'))
  | callingHalts {w w' : World σ} {signal : Signal} {signals : List Signal} {halt : Halt}
      (h : callBack table signal w = .error halt w') :
      Leads (.calling (signal :: signals) w) (.left (.error halt w'))

end

/-- A failed call ends the loop, unless it was merely interrupted. -/
theorem next_received_failed {w : World σ} {e : ChannelError} (he : e ≠ .interrupted) :
    (Stage.received (.failed e) w).next srv table =
      Stage.andThen (pendingQuit w) fun request w =>
        match request with
        | some signal => .left (.ok (.signalled signal) w)
        | none => .left (.error (.failed (.channel e)) w) := by
  cases e <;> first | rfl | exact absurd rfl he

/-- **Every stage but the last has a step.** -/
theorem next_leads (hx : x.isLeft = false) : Leads srv table x (x.next srv table) := by
  cases x with
  | setup w =>
    rw [Stage.next]
    cases h : srv.setup w with
    | ok a w' => exact .prepared h
    | error halt w' => exact .setupHalts h
  | receiving w =>
    rw [Stage.next]
    split
    · next h => exact .answered h
    · next h => exact .unanswered h
  | poised w => exact .preempted w
  | reading w =>
    rw [Stage.next]
    split
    · next hread => exact .dry hread
    · next hread =>
      split
      · next habsorb => exact .broken hread habsorb
      · next habsorb => exact .onward hread habsorb
  | received r w =>
    cases r with
    | item e => exact .item e w
    | ended =>
      obtain ⟨request, w', h⟩ := pendingQuit_ok w
      rw [Stage.next, h]
      exact .closed h
    | failed e =>
      by_cases he : e = .interrupted
      · subst he
        exact .interrupted w
      · obtain ⟨request, w', h⟩ := pendingQuit_ok w
        rw [next_received_failed he, h]
        cases request with
        | none => exact .failed he h
        | some signal => exact .excused he h
    | waiting => exact .waits w
  | handling e w =>
    rw [Stage.next]
    cases h : dispatch srv.handlers e w with
    | ok a w' => exact .handled h
    | error halt w' => exact .handlingHalts h
  | deferring w =>
    rw [Stage.next]
    split
    · next h => exact .collected h
    · next h => exact .unmanaged (Bool.eq_false_iff.2 h)
  | calling signals w =>
    cases signals with
    | nil => exact .looks w
    | cons signal signals =>
      rw [Stage.next]
      cases h : callBack table signal w with
      | ok a w' => exact .called h
      | error halt w' => exact .callingHalts h
  | checking w =>
    obtain ⟨exit, w', h⟩ := checkQuit_ok w
    rw [Stage.next, h]
    cases exit with
    | none =>
      obtain rfl := (checkQuit_none h).1
      exact .again h
    | some exit => exact .stops h
  | left r => cases hx

/-- A step goes to the next stage. -/
theorem Leads.eq_next (h : Leads srv table x y) : y = x.next srv table := by
  cases h with
  | preempted | item | interrupted | waits | looks => rfl
  | prepared h | handled h | called h | setupHalts h | handlingHalts h | callingHalts h
  | closed h | again h | stops h => simp only [Stage.next, h, Stage.andThen]
  | answered h | unanswered h => simp only [Stage.next, h]
  | dry hread => simp only [Stage.next, hread]
  | broken hread habsorb | onward hread habsorb => simp only [Stage.next, hread, habsorb]
  | excused he h | failed he h => simp only [next_received_failed he, h, Stage.andThen]
  | collected h => exact (if_pos h).symm
  | unmanaged h => exact (if_neg (Bool.eq_false_iff.1 h)).symm

theorem Leads.reaches (h : Leads srv table x y) : Reaches srv table x y := by
  rw [h.eq_next]
  exact Reaches.refl.next

/-! ## Where the code of a server is loyal -/

/-- Code of the server that runs at a stage is loyal there. -/
def Stage.Loyal (srv : Server σ) (table : SignalTable (Callback σ)) : Stage σ → Prop
  | setup w => ∀ w', srv.setup w = .ok () w' → ∃ notes, w.Goes notes w'
  | handling e w => ∀ w', dispatch srv.handlers e w = .ok () w' → ∃ notes, w.Goes notes w'
  | calling (signal :: _) w => ∀ w', callBack table signal w = .ok () w' → ∃ notes, w.Goes notes w'
  | _ => True

/-- All code of the server that runs from a stage on is loyal where it runs. -/
def Loyally (srv : Server σ) (table : SignalTable (Callback σ)) (x : Stage σ) : Prop :=
  ∀ y, Reaches srv table x y → y.Loyal srv table

theorem Loyally.of_reaches (h : Loyally srv table x) (hy : Reaches srv table x y) :
    Loyally srv table y :=
  fun z hz => h z (hy.trans hz)

/-- **A server whose code is loyal is loyal wherever it runs.** -/
theorem loyally_of_loyal (hsetup : Code.Loyal srv.setup)
    (hhandlers : ∀ name handler, srv.handlers.get? name = some handler →
      ∀ args, Code.Loyal (handler args))
    (hcallbacks : ∀ signal run, table.callback? signal = some run → Code.Loyal (run signal)) :
    Loyally srv table x := by
  have hdispatch : ∀ e, Code.Loyal (dispatch srv.handlers e) := by
    intro e
    refine Code.Loyal.bind (.of_own fun w a w' h => ?_) fun _ => ?_
    · cases h
      exact ⟨rfl, rfl, rfl⟩
    · split
      · exact .throw _
      · next handler hget => exact hhandlers _ handler hget _
  have hcall : ∀ signal, Code.Loyal (callBack table signal) := by
    intro signal
    unfold callBack
    split
    · next run hget => exact hcallbacks signal run hget
    · exact .pure ()
  intro y _
  cases y with
  | setup w => exact hsetup w ()
  | handling e w => exact hdispatch e w ()
  | calling signals w =>
    cases signals with
    | nil => trivial
    | cons signal signals => exact hcall signal w ()
  | _ => trivial

end Overseer.Loop
