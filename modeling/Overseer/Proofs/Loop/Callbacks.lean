import Overseer.Proofs.Loop.Unserved
import Overseer.Proofs.Process.Hearing

/-!
# The callbacks of a loop

A signal that is bound to a callback is marked when it is delivered, and its callback runs at the
end of a turn. Here a run of the loop is told turn by turn (`Serves`): which signals were delivered
to be taken up later, before the marks were collected and while the callbacks ran, and which
callbacks ran. The deliveries are those of the run: what code hears while it runs (`Code.Hears`) is
put together from what the process hears in each of its steps. What is collected is then what was
heard since the last collection, lowest number first (`Accounts`), whichever way the run is told.

The code of the server may do anything but take up marks or clear them (`Code.SparesMarks`). It may
take up requests to quit and bind signals, so it need not be loyal; that it leaves the loop managed
and adds nothing to what can be received is true of all that such code can do (`Code.Hears.does`).
-/

namespace Overseer

namespace SignalState

/-- Looking for marks finds those of the signals it looks at, in their order. -/
theorem scan_fst {signals : List Signal} (h : signals.Nodup) (pending : Signal → Bool) :
    (scan (fun _ => []) signals pending).1 = signals.filter pending := by
  induction signals generalizing pending with
  | nil => rfl
  | cons signal signals ih =>
    rw [List.nodup_cons] at h
    have hrest : (scan (fun _ => []) signals (mark pending signal false)).1 =
        signals.filter pending := by
      rw [ih h.2]
      refine List.filter_congr fun other hother => ?_
      have hne : other ≠ signal := fun heq => h.1 (heq ▸ hother)
      rw [mark, if_neg hne]
    show (if pending signal then
        signal :: (scan (fun _ => []) signals (mark pending signal false)).1
      else (scan (fun _ => []) signals (mark pending signal false)).1) = _
    rw [hrest, List.filter_cons]

/-- **What is collected** is what was marked, lowest number first. -/
theorem takePending_fst (s : SignalState) : s.takePending.1 = Signal.all.filter s.pending := by
  show (scan (fun _ => []) Signal.all s.pending).1 = _
  exact scan_fst (by decide) s.pending

end SignalState

theorem Signal.mem_all (signal : Signal) : signal ∈ Signal.all := by
  cases signal <;> decide

theorem Signal.all_pairwise : Signal.all.Pairwise (·.number < ·.number) := by
  decide

variable {σ : Type}

/-! ## What code hears -/

/-- What becomes of a world while code runs in it and some signals are heard: they are marked.
Besides, the loop is left as managed as it was, and nothing is added to what can be received. -/
structure World.Heard (w : World σ) (signals : List Signal) (w' : World σ) : Prop where
  managed_eq : w'.context.managed = w.context.managed
  marks : w.process.signals.Marks signals w'.process.signals
  pending_le : w'.pendingInput ≤ w.pendingInput

namespace World

variable {w w' w'' : World σ} {signals signals' : List Signal}

theorem Heard.refl (w : World σ) : w.Heard [] w := ⟨rfl, .refl _, Nat.le_refl _⟩

theorem Heard.trans (h : w.Heard signals w') (h' : w'.Heard signals' w'') :
    w.Heard (signals ++ signals') w'' :=
  ⟨h'.managed_eq.trans h.managed_eq, h.marks.trans h'.marks,
    Nat.le_trans h'.pending_le h.pending_le⟩

/-- Where the channel is left alone the process alone counts. -/
theorem Heard.of_course {notes : List Note} {process : Process}
    (hcourse : w.process.Course notes process)
    (hmarks : w.process.signals.Marks signals process.signals) :
    w.Heard signals { w with process } :=
  ⟨rfl, hmarks, Nat.add_le_add_left hcourse.inflow_le _⟩

end World

namespace Code

variable {α β : Type}

/-- **Code runs in a world and hears some signals.** It is put together from code to which no signal
is delivered in any world, and from the points where signals are delivered to the process. -/
inductive Hears : {α : Type} → Code σ α → World σ → List Signal → Prop
  | silent {α : Type} {code : Code σ α} (h : Within (fun w w' => w.Heard [] w') code)
      (w : World σ) : Hears code w []
  /-- A signal that the process sends itself may have those act that were held back. -/
  | raise (signal : Signal) (w : World σ) :
      Hears (raise signal) w
        (w.process.heardInDeliver signal ++ (w.process.deliver signal).2.heardInResume)
  | preempt (w : World σ) :
      Hears preempt w (w.process.heardInPreempt ++ w.process.preempt.heardInResume)
  | spin (w : World σ) : Hears spin w w.process.heardInAwaitQuit
  | hang (w : World σ) : Hears hang w w.process.heardInHang
  /-- Whatever is made of a frame, receiving it reads it. -/
  | receiving {α : Type} {receive : Channel → Process → Reception α × Channel × Process}
      (h : ∀ c p, (receive c p).2 = (Channel.nextFrame Process.transport c p).2) (w : World σ) :
      Hears (receiving receive) w (w.process.heardInFrame w.context.channel)
  | bind {α β : Type} {code : Code σ α} {f : α → Code σ β} {w w' : World σ} {a : α}
      {signals signals' : List Signal} (h : Hears code w signals) (hrun : code w = .ok a w')
      (hrest : Hears (f a) w' signals') : Hears (code >>= f) w (signals ++ signals')
  /-- What follows a halt is not run. -/
  | halted {α β : Type} {code : Code σ α} {f : α → Code σ β} {w w' : World σ} {halt : Halt}
      {signals : List Signal} (h : Hears code w signals) (hrun : code w = .error halt w') :
      Hears (code >>= f) w signals
  /-- Code may go on in another way after a halt. -/
  | caught {α : Type} {code : Code σ α} {f : Halt → Code σ α} {w w' : World σ} {halt : Halt}
      {signals signals' : List Signal} (h : Hears code w signals)
      (hrun : code w = .error halt w') (hrest : Hears (f halt) w' signals') :
      Hears (tryCatch code f) w (signals ++ signals')
  | uncaught {α : Type} {code : Code σ α} {f : Halt → Code σ α} {w w' : World σ} {a : α}
      {signals : List Signal} (h : Hears code w signals) (hrun : code w = .ok a w') :
      Hears (tryCatch code f) w signals

theorem tryCatch_apply (code : Code σ α) (f : Halt → Code σ α) (w : World σ) :
    (tryCatch code f) w =
      match code w with
      | .ok a w => .ok a w
      | .error halt w => f halt w := by
  show EStateM.tryCatch code f w = _
  unfold EStateM.tryCatch
  cases code w <;> rfl

theorem after_disturb (f : Process → Process) (w : World σ) :
    (disturb f).after w = { w with process := (f w.process).resume } := by
  unfold after disturb
  simp only
  cases (f w.process).resume.status <;> rfl

/-- A disturbance is heard, and so is what happens until the process goes on. -/
theorem heard_disturb {f : Process → Process} {w : World σ} {signals : List Signal}
    (hcourse : ∃ notes, w.process.Course notes (f w.process))
    (hmarks : w.process.signals.Marks signals (f w.process).signals) :
    w.Heard (signals ++ (f w.process).heardInResume) ((disturb f).after w) := by
  obtain ⟨notes, hfirst⟩ := hcourse
  obtain ⟨notes', hrest⟩ := Process.Course.resume (f w.process)
  rw [after_disturb]
  exact .of_course (hfirst.trans hrest) (hmarks.trans (Process.marks_resume _))

theorem after_spin (w : World σ) :
    (spin : Code σ Unit).after w = { w with process := w.process.awaitQuit } := by
  by_cases h : w.process.awaitQuit.status = .running ∧
      w.process.awaitQuit.signals.quitRequest.isSome
  · exact after_of_ok (if_pos h)
  · exact after_of_error (if_neg h)

theorem after_receiving (receive : Channel → Process → Reception α × Channel × Process)
    (w : World σ) :
    (receiving receive).after w =
      w.holding (receive w.context.channel w.process).2.1
        (receive w.context.channel w.process).2.2 := by
  unfold after receiving
  simp only
  cases (receive w.context.channel w.process).1 <;> rfl

/-- **What code has heard is marked**, whether it comes to its end or to a halt. -/
theorem Hears.does {code : Code σ α} {w : World σ} {signals : List Signal}
    (h : code.Hears w signals) : w.Heard signals (code.after w) := by
  induction h with
  | silent h w => exact h w
  | raise signal w =>
    exact heard_disturb (f := fun p => (p.deliver signal).2)
      (Process.Course.deliver w.process signal)
      (Process.marks_deliver w.process signal)
  | preempt w =>
    exact heard_disturb (Process.Course.preempt w.process) (Process.marks_preempt w.process)
  | spin w =>
    obtain ⟨notes, hcourse⟩ := Process.Course.awaitQuit w.process
    rw [after_spin]
    exact .of_course hcourse (Process.marks_awaitQuit w.process)
  | hang w =>
    obtain ⟨notes, hcourse⟩ := Process.Course.hang w.process
    exact .of_course hcourse (Process.marks_hang w.process)
  | @receiving _ receive h w =>
    rw [after_receiving, h]
    have hfetch := (Channel.fetches_iff Process.transport_lawful).2
      (rfl : Channel.nextFrame Process.transport w.context.channel w.process = _)
    exact ⟨rfl, Process.marks_frame w.process w.context.channel, hfetch.pending.1⟩
  | @bind _ _ code f w w' a signals signals' _ hrun _ ih ih' =>
    rw [after_of_ok hrun] at ih
    have hafter : (code >>= f).after w = (f a).after w' := by
      unfold after
      rw [bind_apply, hrun]
    rw [hafter]
    exact ih.trans ih'
  | @halted _ _ code f w w' halt signals _ hrun ih =>
    rw [after_of_error hrun] at ih
    rwa [after_of_error (by rw [bind_apply, hrun])]
  | @caught _ code f w w' halt signals signals' _ hrun _ ih ih' =>
    rw [after_of_error hrun] at ih
    have hafter : (tryCatch code f).after w = (f halt).after w' := by
      unfold after
      rw [tryCatch_apply, hrun]
    rw [hafter]
    exact ih.trans ih'
  | @uncaught _ code f w w' a signals _ hrun ih =>
    rw [after_of_ok hrun] at ih
    rwa [after_of_ok (by rw [tryCatch_apply, hrun])]

/-- Code that takes up no mark and clears none: what it hears in a world can be told. -/
def SparesMarks (code : Code σ α) : Prop := ∀ w, ∃ signals, code.Hears w signals

theorem SparesMarks.bind {code : Code σ α} {f : α → Code σ β} (h : SparesMarks code)
    (hf : ∀ a, SparesMarks (f a)) : SparesMarks (code >>= f) := by
  intro w
  obtain ⟨signals, hfirst⟩ := h w
  cases hrun : code w with
  | ok a w' =>
    obtain ⟨signals', hrest⟩ := hf a w'
    exact ⟨_, hfirst.bind hrun hrest⟩
  | error halt w' => exact ⟨_, hfirst.halted hrun⟩

/-- Giving up spares the marks. -/
theorem SparesMarks.throw (halt : Halt) : SparesMarks (throw halt : Code σ α) :=
  fun w => ⟨_, .silent (by intro w; exact .refl w) w⟩

theorem SparesMarks.modifyServer (f : σ → σ) : SparesMarks (modifyServer f) :=
  fun w => ⟨_, .silent (fun _ => ⟨rfl, .refl _, Nat.le_refl _⟩) w⟩

theorem SparesMarks.raise (signal : Signal) : SparesMarks (raise signal : Code σ Unit) :=
  fun w => ⟨_, .raise signal w⟩

/-- Asking to quit has nothing to do with the marks. -/
theorem SparesMarks.requestQuit (signal : Signal) :
    SparesMarks (requestQuit signal : Code σ Unit) := by
  refine fun w => ⟨_, .silent (fun w => ?_) w⟩
  refine .of_course (Process.Course.request w.process signal) (.of_eq ?_)
  rw [Process.requestQuit, Process.signals_shutRead]
  rfl

end Code

namespace Loop

/-! ## The account of a run -/

/-- What there is to tell of a turn that comes to its callbacks. -/
structure Told where
  /-- The signals that were heard before the marks were collected. -/
  arrived : List Signal
  /-- What was collected. -/
  collected : List Signal
  /-- The signals that were heard while the callbacks ran. -/
  later : List Signal

/-- **The account of some turns.** A turn collects each signal that was heard since the last
collection, while the callbacks of the turn before ran or in this turn, and no other one; each of
them once, lowest number first. -/
def Accounts : List Signal → List Told → Prop
  | _, [] => True
  | carried, turn :: turns =>
    (∀ signal, signal ∈ turn.collected ↔ signal ∈ carried ++ turn.arrived) ∧
      turn.collected.Pairwise (·.number < ·.number) ∧ Accounts turn.later turns

section
variable (handlers : Handlers (Handler σ)) (table : SignalTable (Callback σ))

/-- A turn comes to its callbacks: a message has been handled, or a read was interrupted. Signals
have been heard meanwhile. -/
inductive Attends (w : World σ) : List Signal → World σ → Prop
  | handled {e : Envelope} {w₁ w₂ : World σ} {signals signals' : List Signal}
      (hreceive : Code.receive w = .ok (.item e) w₁) (hears : Code.receive.Hears w signals)
      (hrun : dispatch handlers e w₁ = .ok () w₂)
      (hears' : (dispatch handlers e).Hears w₁ signals') : Attends w (signals ++ signals') w₂
  | interrupted {w' : World σ} {signals : List Signal}
      (hreceive : Code.receive w = .ok (.failed .interrupted) w')
      (hears : Code.receive.Hears w signals) : Attends w signals w'

/-- A turn ends the run before it comes to its callbacks. -/
inductive Leaves (w : World σ) : EStateM.Result Halt (World σ) LoopExit → Prop
  /-- The stream has ended, perhaps because the process was asked to quit. -/
  | ended {w₁ w₂ : World σ} {request : Option Signal} (hreceive : Code.receive w = .ok .ended w₁)
      (hquit : pendingQuit w₁ = .ok request w₂) :
      Leaves w (.ok (request.elim .peerClosed .signalled) w₂)
  /-- A read has failed while the process was asked to quit. -/
  | excused {w₁ w₂ : World σ} {e : ChannelError} {signal : Signal}
      (hreceive : Code.receive w = .ok (.failed e) w₁) (he : e ≠ .interrupted)
      (hquit : pendingQuit w₁ = .ok (some signal) w₂) : Leaves w (.ok (.signalled signal) w₂)
  /-- A read has failed. -/
  | broken {w₁ w₂ : World σ} {e : ChannelError} (hreceive : Code.receive w = .ok (.failed e) w₁)
      (he : e ≠ .interrupted) (hquit : pendingQuit w₁ = .ok none w₂) :
      Leaves w (.error (.failed (.channel e)) w₂)
  /-- The read waits for ever, or a signal ends the process in it. -/
  | stuck {w' : World σ} {halt : Halt} (hreceive : Code.receive w = .error halt w') :
      Leaves w (.error halt w')
  /-- The handler does not come to its end, or there is none. -/
  | refused {e : Envelope} {w₁ w₂ : World σ} {halt : Halt}
      (hreceive : Code.receive w = .ok (.item e) w₁)
      (hrun : dispatch handlers e w₁ = .error halt w₂) : Leaves w (.error halt w₂)

/-- The callbacks of some signals are called, one after the other, up to one that does not come to
its end. Meanwhile the signals of `later` are heard. -/
inductive Calls : List Signal → World σ → List Signal → EStateM.Result Halt (World σ) Unit → Prop
  | done (w : World σ) : Calls [] w [] (.ok () w)
  /-- A signal without a callback calls nothing. -/
  | skipped {signal : Signal} {signals later : List Signal} {w : World σ}
      {r : EStateM.Result Halt (World σ) Unit} (hget : table.callback? signal = none)
      (hrest : Calls signals w later r) : Calls (signal :: signals) w later r
  | called {signal : Signal} {signals arrived later : List Signal} {w w' : World σ}
      {run : Callback σ} {r : EStateM.Result Halt (World σ) Unit}
      (hget : table.callback? signal = some run) (hrun : run signal w = .ok () w')
      (hears : (run signal).Hears w arrived) (hrest : Calls signals w' later r) :
      Calls (signal :: signals) w (arrived ++ later) r
  | halted {signal : Signal} {signals arrived : List Signal} {w w' : World σ} {run : Callback σ}
      {halt : Halt} (hget : table.callback? signal = some run)
      (hrun : run signal w = .error halt w') (hears : (run signal).Hears w arrived) :
      Calls (signal :: signals) w arrived (.error halt w')

/-- A run of the loop, turn by turn. -/
inductive Serves : World σ → List Told → EStateM.Result Halt (World σ) LoopExit → Prop
  /-- The last turn does not come to its callbacks. -/
  | leaves {w : World σ} {r : EStateM.Result Halt (World σ) LoopExit}
      (h : Leaves handlers w r) : Serves w [] r
  /-- A callback does not come to its end: neither does the loop, whatever it was asked for. -/
  | fails {arrived collected later : List Signal} {w w₁ w₂ w' : World σ} {halt : Halt}
      (hattends : Attends handlers w arrived w₁) (htake : Code.takePending w₁ = .ok collected w₂)
      (hcalls : Calls table collected w₂ later (.error halt w')) :
      Serves w [⟨arrived, collected, later⟩] (.error halt w')
  /-- The callbacks have been called, and then the loop is to end. -/
  | quits {arrived collected later : List Signal} {w w₁ w₂ w₃ w' : World σ} {exit : LoopExit}
      (hattends : Attends handlers w arrived w₁) (htake : Code.takePending w₁ = .ok collected w₂)
      (hcalls : Calls table collected w₂ later (.ok () w₃))
      (hquit : checkQuit w₃ = .ok (some exit) w') :
      Serves w [⟨arrived, collected, later⟩] (.ok exit w')
  /-- The callbacks have been called, and the loop goes on. -/
  | again {arrived collected later : List Signal} {turns : List Told} {w w₁ w₂ w₃ w₄ : World σ}
      {r : EStateM.Result Halt (World σ) LoopExit}
      (hattends : Attends handlers w arrived w₁) (htake : Code.takePending w₁ = .ok collected w₂)
      (hcalls : Calls table collected w₂ later (.ok () w₃)) (hquit : checkQuit w₃ = .ok none w₄)
      (hrest : Serves w₄ turns r) : Serves w (⟨arrived, collected, later⟩ :: turns) r

end

variable {handlers : Handlers (Handler σ)} {table : SignalTable (Callback σ)}
  {w w' : World σ} {carried : List Signal}

/-- The code of a server spares the marks. -/
structure SparesMarks (handlers : Handlers (Handler σ)) (table : SignalTable (Callback σ)) :
    Prop where
  handlers {name : String} {handler : Handler σ} (h : handlers.get? name = some handler)
    (args : List Octets) : (handler args).SparesMarks
  callbacks {signal : Signal} {run : Callback σ} (h : table.callback? signal = some run) :
    (run signal).SparesMarks

/-! ## What was heard is collected -/

theorem Attends.does {arrived : List Signal} (h : Attends handlers w arrived w') :
    w.Heard arrived w' := by
  cases h with
  | handled hreceive hears hrun hears' =>
    have hfirst := hears.does
    have hrest := hears'.does
    rw [Code.after_of_ok hreceive] at hfirst
    rw [Code.after_of_ok hrun] at hrest
    exact hfirst.trans hrest
  | interrupted hreceive hears =>
    have hfirst := hears.does
    rwa [Code.after_of_ok hreceive] at hfirst

theorem Calls.does {signals later : List Signal} {r : EStateM.Result Halt (World σ) Unit}
    (h : Calls table signals w later r) (hr : r = .ok () w') : w.Heard later w' := by
  induction h with
  | done =>
    cases hr
    exact .refl _
  | skipped _ _ ih => exact ih hr
  | called _ hrun hears _ ih =>
    have hfirst := hears.does
    rw [Code.after_of_ok hrun] at hfirst
    exact hfirst.trans (ih hr)
  | halted => cases hr

/-- **A turn collects what was heard** since the last collection, and leaves no mark. -/
theorem collects {arrived collected : List Signal} {w₁ : World σ}
    (hcarried : ∀ signal, signal ∈ carried ↔ w.process.signals.pending signal = true)
    (hheard : w.Heard arrived w₁) (htake : Code.takePending w₁ = .ok collected w') :
    (∀ signal, signal ∈ collected ↔ signal ∈ carried ++ arrived) ∧
      collected.Pairwise (·.number < ·.number) ∧
      ∀ signal, w'.process.signals.pending signal = false := by
  rw [Code.takePending_apply, SignalState.takePending_fst] at htake
  cases htake
  refine ⟨fun signal => ?_, Signal.all_pairwise.filter _, SignalState.takePending_pending _⟩
  rw [List.mem_filter, List.mem_append, hcarried, ← hheard.marks]
  exact and_iff_right (Signal.mem_all signal)

/-- **Every run keeps its account**, however it is told. -/
theorem Serves.accounts {turns : List Told} {r : EStateM.Result Halt (World σ) LoopExit}
    (h : Serves handlers table w turns r)
    (hcarried : ∀ signal, signal ∈ carried ↔ w.process.signals.pending signal = true) :
    Accounts carried turns := by
  induction h generalizing carried with
  | leaves => trivial
  | fails hattends htake _ | quits hattends htake _ _ =>
    obtain ⟨hdue, horder, -⟩ := collects hcarried hattends.does htake
    exact ⟨hdue, horder, trivial⟩
  | again hattends htake hcalls hquit _ ih =>
    obtain ⟨hdue, horder, hnone⟩ := collects hcarried hattends.does htake
    refine ⟨hdue, horder, ih fun signal => ?_⟩
    rw [(checkQuit_none hquit).1, (hcalls.does rfl).marks, hnone]
    exact ⟨.inr, fun h => h.resolve_left Bool.false_ne_true⟩

/-! ## Every run can be told -/

/-- What a call for a message brings has been fetched, and it does not wait. -/
theorem fetched_of_receive {r : Reception Envelope} (h : Code.receive w = .ok r w') :
    r ≠ .waiting ∧ ∃ answer channel process,
      Channel.Fetches Process.transport w.context.channel w.process (answer, channel, process) ∧
      r = answer.toEnvelope ∧ w' = w.holding channel process := by
  generalize hout : Channel.nextFrame Process.transport w.context.channel w.process = out
  obtain ⟨answer, channel, process⟩ := out
  have hfetch := (Channel.fetches_iff Process.transport_lawful).2 hout
  rw [Code.receive_apply hout] at h
  split at h
  · cases h
  · next hwaiting =>
    cases h
    exact ⟨hwaiting, answer, channel, process, hfetch, rfl, rfl⟩

/-- It uses up what it brings, and an interruption too. -/
theorem pendingInput_of_receive {r : Reception Envelope} (h : Code.receive w = .ok r w')
    (hr : (∃ e, r = .item e) ∨ r = .failed .interrupted) : w'.pendingInput < w.pendingInput := by
  obtain ⟨-, answer, channel, process, hfetch, rfl, rfl⟩ := fetched_of_receive h
  exact pendingInput_of_fetches hfetch hr

theorem sparesMarks_receive : (Code.receive : Code σ (Reception Envelope)).SparesMarks :=
  fun w => ⟨_, .receiving (fun c p => by rw [Channel.receive_eq]) w⟩

/-- A message is handled by code that spares the marks. -/
theorem sparesMarks_dispatch (hcode : SparesMarks handlers table) (e : Envelope) :
    (dispatch handlers e).SparesMarks := by
  have hkeep : Code.SparesMarks (modify fun w : World σ =>
      { w with context := { w.context with descriptor := e.descriptor } }) :=
    fun w => ⟨_, .silent (fun _ => ⟨rfl, .refl _, Nat.le_refl _⟩) w⟩
  refine hkeep.bind fun _ => ?_
  split
  · exact .throw _
  · next handler hget => exact hcode.handlers hget _

/-- **A turn that comes to its callbacks** has handled a message, or its read was interrupted. Any
other one leaves the loop. -/
theorem attend_cases (hcode : SparesMarks handlers table) (w : World σ) :
    (∃ arrived w', attend handlers w = .ok none w' ∧ Attends handlers w arrived w' ∧
      w'.pendingInput < w.pendingInput) ∨
    (∃ exit w', attend handlers w = .ok (some exit) w' ∧ Leaves handlers w (.ok exit w')) ∨
    ∃ halt w', attend handlers w = .error halt w' ∧ Leaves handlers w (.error halt w') := by
  obtain ⟨signals, hears⟩ := sparesMarks_receive w
  unfold attend
  rw [Code.bind_apply]
  cases hreceive : Code.receive w with
  | error halt w₁ => exact .inr (.inr ⟨halt, w₁, rfl, .stuck hreceive⟩)
  | ok r w₁ =>
    cases r with
    | item e =>
      have hless := pendingInput_of_receive hreceive (.inl ⟨e, rfl⟩)
      obtain ⟨signals', hears'⟩ := sparesMarks_dispatch hcode e w₁
      simp only
      rw [Code.bind_apply]
      cases hrun : dispatch handlers e w₁ with
      | ok a w₂ =>
        have hrest := hears'.does
        rw [Code.after_of_ok hrun] at hrest
        exact .inl ⟨_, w₂, rfl, .handled hreceive hears hrun hears',
          Nat.lt_of_le_of_lt hrest.pending_le hless⟩
      | error halt w₂ => exact .inr (.inr ⟨halt, w₂, rfl, .refused hreceive hrun⟩)
    | ended =>
      obtain ⟨request, w₂, hquit⟩ := pendingQuit_ok w₁
      simp only
      rw [Code.bind_apply, hquit]
      exact .inr (.inl ⟨_, w₂, rfl, .ended hreceive hquit⟩)
    | failed e =>
      by_cases he : e = .interrupted
      · subst he
        exact .inl ⟨_, w₁, rfl, .interrupted hreceive hears,
          pendingInput_of_receive hreceive (.inr rfl)⟩
      · obtain ⟨request, w₂, hquit⟩ := pendingQuit_ok w₁
        simp only
        rw [Code.bind_apply, hquit]
        cases request with
        | some signal => exact .inr (.inl ⟨_, w₂, rfl, .excused hreceive he hquit⟩)
        | none => exact .inr (.inr ⟨_, w₂, rfl, .broken hreceive he hquit⟩)
    | waiting => exact absurd rfl (fetched_of_receive hreceive).1

/-- **Each signal is called back once.** -/
theorem calls_forM (hcode : SparesMarks handlers table) (signals : List Signal) (w : World σ) :
    ∃ later, Calls table signals w later (signals.forM (callBack table) w) := by
  induction signals generalizing w with
  | nil => exact ⟨[], .done w⟩
  | cons signal signals ih =>
    rw [show (signal :: signals).forM (callBack table) =
      (callBack table signal >>= fun _ => signals.forM (callBack table)) from rfl, Code.bind_apply]
    cases hget : table.callback? signal with
    | none =>
      have hcall : callBack table signal w = .ok () w := by
        rw [callBack, hget]
        rfl
      rw [hcall]
      obtain ⟨later, hcalls⟩ := ih w
      exact ⟨later, .skipped hget hcalls⟩
    | some run =>
      have hcall : callBack table signal w = run signal w := by
        rw [callBack, hget]
      rw [hcall]
      obtain ⟨arrived, hears⟩ := hcode.callbacks hget w
      cases hrun : run signal w with
      | ok a w₁ =>
        obtain ⟨later, hcalls⟩ := ih w₁
        exact ⟨_, .called hget hrun hears hcalls⟩
      | error halt w₁ => exact ⟨_, .halted hget hrun hears⟩

/-- What a loop whose signals are managed has collected, it calls back. -/
theorem runDeferred_apply {collected : List Signal} (hmanaged : w.context.managed = true)
    (htake : Code.takePending w = .ok collected w') :
    runDeferred table w = collected.forM (callBack table) w' := by
  unfold runDeferred
  rw [Code.get_bind, if_pos hmanaged, Code.bind_apply, htake]

/-- Turns enough for the input go on as they are told. -/
theorem within_serves (hcode : SparesMarks handlers table) {bound : Nat}
    (hinput : w.pendingInput < bound) (hmanaged : w.context.managed = true) :
    ∃ turns, Serves handlers table w turns (within handlers table bound w) := by
  induction bound generalizing w with
  | zero => omega
  | succ bound ih =>
    rw [within, pass, bind_assoc, Code.bind_apply]
    rcases attend_cases hcode w with ⟨arrived, w₁, hattend, hattends, hless⟩ |
      ⟨exit, w₁, hattend, hleaves⟩ | ⟨halt, w₁, hattend, hleaves⟩
    · have hheard := hattends.does
      have htake := Code.takePending_apply w₁
      generalize hw₂ : ({ w₁ with process := _ } : World σ) = w₂ at htake
      obtain ⟨later, hcalls⟩ := calls_forM hcode w₁.process.signals.takePending.1 w₂
      rw [hattend]
      simp only
      rw [bind_assoc, Code.bind_apply,
        runDeferred_apply (hheard.managed_eq.trans hmanaged) htake]
      cases hrun : w₁.process.signals.takePending.1.forM (callBack table) w₂ with
      | error halt w₃ =>
        rw [hrun] at hcalls
        exact ⟨_, .fails hattends htake hcalls⟩
      | ok a w₃ =>
        rw [hrun] at hcalls
        have hthen := hcalls.does rfl
        simp only
        rw [Code.bind_apply]
        obtain ⟨exit, w₄, hcheck⟩ := checkQuit_ok w₃
        rw [hcheck]
        cases exit with
        | some exit => exact ⟨_, .quits hattends htake hcalls hcheck⟩
        | none =>
          obtain rfl := (checkQuit_none hcheck).1
          subst hw₂
          obtain ⟨turns, hserves⟩ := ih (Nat.lt_of_le_of_lt hthen.pending_le
            (Nat.lt_of_lt_of_le hless (Nat.le_of_lt_succ hinput)))
            (hthen.managed_eq.trans (hheard.managed_eq.trans hmanaged))
          exact ⟨_, .again hattends htake hcalls hcheck hserves⟩
    · rw [hattend]
      exact ⟨_, .leaves hleaves⟩
    · rw [hattend]
      exact ⟨_, .leaves hleaves⟩

/-- **Callbacks run once, in order and in their turn.** The signals are managed, and the code of the
server takes up no marks and clears none; besides that it may do anything, and signals may be
delivered wherever it runs and wherever the loop reads. Then the run goes turn by turn as `Serves`
tells. Behind each message whose handler came to its end and each read that was interrupted the
marks are collected, and each signal that is collected is called back once, in the order of the
collection, before the loop looks whether it is to end and before it receives again. A callback that
fails ends the loop with its failure, whatever else has been asked for.

However such a run is told, what its turns collect is what was heard (`Accounts`): the signals that
were delivered to be taken up later since the last collection, lowest number first. What is heard
while callbacks run is left for the next collection. -/
theorem run_serves (handlers : Handlers (Handler σ)) (table : SignalTable (Callback σ))
    (hcode : SparesMarks handlers table) (w : World σ) (hmanaged : w.context.managed = true) :
    (∃ turns, Serves handlers table w turns (run handlers table w)) ∧
      ∀ turns r, Serves handlers table w turns r →
        Accounts (Signal.all.filter w.process.signals.pending) turns := by
  refine ⟨within_serves hcode (Nat.lt_succ_self _) hmanaged, fun turns r hserves => ?_⟩
  refine hserves.accounts fun signal => ?_
  rw [List.mem_filter]
  exact and_iff_right (Signal.mem_all signal)

/-! A server that keeps which of its signals were called back, in that order. -/

/-- Keeps a signal. -/
def callsOut (signal : Signal) : Code (List Signal) Unit :=
  Code.modifyServer fun called => called ++ [signal]

/-- Its handlers: one sends it two signals, the higher one first; the other one asks it to quit and
sends it two others. -/
def choirHandlers : Handlers (Handler (List Signal)) :=
  .ofList [("go", fun _ => do Code.raise .usr2; Code.raise .usr1),
    ("no", fun _ => do Code.requestQuit .int; Code.raise .winch; Code.raise .alrm)]

/-- Its callbacks: one sends it another signal, and one fails. -/
def choirTable : SignalTable (Callback (List Signal)) :=
  (((({} : SignalTable (Callback (List Signal))).set .usr1 (.callback fun signal => do
      callsOut signal; Code.raise .usr2)).set .usr2 (.callback callsOut)).set .alrm
    (.callback fun signal => do callsOut signal; Code.fail (.failed "late"))).set .winch
    (.callback callsOut)

/-- Its world, with the signals bound as they are to be: a message comes, a signal interrupts the
read behind it, and another message comes. -/
def choirWorld : World (List Signal) where
  server := []
  context := { managed := true, channel := { interruptible := true } }
  process :=
    { signals := (SignalManager.install choirTable.plan {}).2
      coming := [.arrive ⟨[1, 0, 0, 0, 0, 8, 0, 1, 0, 0, 0, 2, 103, 111], [], false⟩, .signal .usr1,
        .arrive ⟨[1, 0, 0, 0, 0, 8, 0, 1, 0, 0, 0, 2, 110, 111], [], false⟩] }

/-- Whether a loop has failed for a reason, with a request to quit pending and these signals called
back. -/
def failsCalling (reason : String) (called : List Signal) :
    EStateM.Result Halt (World (List Signal)) LoopExit → Bool
  | .error (.failed (.failed text)) w =>
    text == reason && w.server == called && w.process.signals.quitRequest.isSome
  | _ => false

theorem choir_sparesMarks : SparesMarks choirHandlers choirTable where
  handlers := by
    intro name handler h args
    have htwo : choirHandlers = Handlers.on (Handlers.on {} "go" _) "no" _ := rfl
    rw [htwo, Handlers.get?_on, Handlers.get?_on] at h
    split at h
    · cases h
      exact (Code.SparesMarks.requestQuit _).bind fun _ => (Code.SparesMarks.raise _).bind fun _ =>
        .raise _
    · split at h <;> cases h
      exact (Code.SparesMarks.raise _).bind fun _ => .raise _
  callbacks := by
    intro signal run h
    have hcalls (signal : Signal) : (callsOut signal).SparesMarks := .modifyServer _
    cases signal <;> cases h
    · exact (hcalls _).bind fun _ => .raise _
    · exact hcalls _
    · exact (hcalls _).bind fun _ => .throw _
    · exact hcalls _

/-- The first two turns call back the two signals in order, although they arrive in another one, and
the second of them again for its delivery by the first one's callback; the third turn fails at the
third signal, and neither calls back the fourth nor sees that the loop was asked to quit. -/
theorem run_serves_choir :
    SparesMarks choirHandlers choirTable ∧ choirWorld.context.managed = true ∧
      ((∃ turns, Serves choirHandlers choirTable choirWorld turns
          (run choirHandlers choirTable choirWorld)) ∧
        ∀ turns r, Serves choirHandlers choirTable choirWorld turns r →
          Accounts (Signal.all.filter choirWorld.process.signals.pending) turns) ∧
      failsCalling "late" [.usr1, .usr2, .usr1, .usr2, .usr2, .alrm]
        (run choirHandlers choirTable choirWorld) = true :=
  ⟨choir_sparesMarks, rfl, run_serves choirHandlers choirTable choir_sparesMarks choirWorld rfl,
    by decide +kernel⟩

end Loop

end Overseer
