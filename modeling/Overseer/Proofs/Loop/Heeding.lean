import Overseer.Proofs.Loop.Signalled
import Overseer.Proofs.Loop.Unserved

/-!
# Requests to quit that a read does not heed

A loop binds its signals first, and registers its socket after that. A request to quit that comes
behind the registration shuts the inbox, so no read waits any more. One that comes between the two
is there when the socket is registered, but has shut nothing; the loop looks for requests only
behind its first read, and that one may wait for ever.

`reads_heed` says that nothing else is amiss. `Process.WaitsIn` are the moments of a read that
waits: at each of them there is no request to quit, or the inbox is shut, or the request is the one
that was there when the socket was registered; and behind the first look whether the loop is to end
it is none of those either. The invariant is `Process.Heeds`. The code of the server may do to its
process whatever is a `Process.Passage`: anything but register another descriptor, or none.

`waits_unheeded` is the other side: a request that is there when the socket is registered does leave
the first read waiting.
-/

namespace Overseer

variable {σ α β : Type}

namespace Process

/-! ## Waiting in a read -/

/-- A process in a read does not go on: it is suspended, or what has happened gives it no answer. -/
structure Stays (n : Nat) (ran : Bool) (p : Process) : Prop where
  lives (signal : Signal) : p.status ≠ .ended signal
  unanswered (hrun : p.status = .running) : readAgain n ran p = none

/-- The moments at which a process waits in a read that began in another one: the beginning, if
there is no answer, and whatever has happened since, as long as there is none. -/
inductive WaitsIn (n : Nat) (p : Process) : Process → Prop
  | begins (h : p.Stays n false) : WaitsIn n p p
  | goesOn {q : Process} {stimulus : Stimulus} {coming : List Stimulus} (h : WaitsIn n p q)
      (hcoming : q.coming = stimulus :: coming)
      (hstays : Stays n (q.meet stimulus).1 { (q.meet stimulus).2 with coming }) :
      WaitsIn n p { (q.meet stimulus).2 with coming }

variable {p p' p'' q : Process} {n : Nat} {notes : List Note} {left : Option Signal}

theorem await_of_stays {stimulus : Stimulus} {coming : List Stimulus}
    (h : Stays n (q.meet stimulus).1 { (q.meet stimulus).2 with coming }) :
    await (readAgain n) (stimulus :: coming) q =
      await (readAgain n) coming { (q.meet stimulus).2 with coming } := by
  rw [await]
  simp only
  split
  · next signal hended => exact absurd hended (h.lives signal)
  · rfl
  · next hrun => rw [h.unanswered hrun]

/-- **A read that waits is still the same read**: its answer is that of the waiting. -/
theorem WaitsIn.readOn_eq (h : WaitsIn n p q) : p.readOn n = await (readAgain n) q.coming q := by
  induction h with
  | begins h =>
    rw [readOn]
    split
    · next signal hended => exact absurd hended (h.lives signal)
    · rfl
    · next hrun => rw [show p.readNow n = none from h.unanswered hrun]
  | goesOn _ hcoming hstays ih => rw [ih, hcoming, await_of_stays hstays]

/-- To wait is a course. -/
theorem WaitsIn.course (h : WaitsIn n p q) : ∃ notes, Course p notes q := by
  induction h with
  | begins => exact ⟨_, .refl p⟩
  | goesOn _ hcoming _ ih =>
    obtain ⟨notes, hcourse⟩ := ih
    obtain ⟨notes', hmeet⟩ := Course.meet hcoming
    exact ⟨_, hcourse.trans hmeet⟩

/-! ## What the code of a server may do -/

/-- What code makes of a process that leaves the descriptor registered which a request to quit
shuts. It may take up the request, and bind signals anew. -/
inductive Passage : Process → Process → Prop
  | course {p p' : Process} {notes : List Note} (h : Course p notes p') : Passage p p'
  | taken (p : Process) : Passage p { p with signals := p.signals.takeQuit.2 }
  | bound (p : Process) (dispositions : Signal → Disposition) :
      Passage p { p with signals := { p.signals with dispositions } }
  | trans {p p' p'' : Process} (h : Passage p p') (h' : Passage p' p'') : Passage p p''

theorem Passage.refl (p : Process) : Passage p p := .course (.refl p)

/-- The socket is registered, and a request to quit that is there has shut the inbox, unless it is
the one that was left. -/
structure Heeds (left : Option Signal) (p : Process) : Prop where
  wakeup_eq : p.signals.wakeup = some p.socket
  heeded : p.signals.quitRequest = none ∨ p.inbox.shut = true ∨ p.signals.quitRequest = left

theorem Heeds.course (h : p.Heeds left) (hcourse : Course p notes p') : p'.Heeds left := by
  refine ⟨by rw [hcourse.wakeup_eq, hcourse.socket_eq, h.wakeup_eq], ?_⟩
  by_cases hnotes : Note.requests notes = []
  · -- nobody has asked, so it is the old request, and an inbox that was shut still is
    have hrequest : p'.signals.quitRequest = p.signals.quitRequest := by
      rw [hcourse.quitRequest_eq, hnotes]
      rfl
    rw [hrequest]
    exact h.heeded.imp_right (Or.imp_left fun hshut => hcourse.shut (.inl hshut))
  · exact .inr (.inl (hcourse.shut (.inr ⟨hnotes, h.wakeup_eq⟩)))

/-- **Whatever the code of a server does**, the inbox is shut when a request comes. -/
theorem Heeds.passage (h : p.Heeds left) (hpassage : Passage p p') : p'.Heeds left := by
  induction hpassage with
  | course hcourse => exact h.course hcourse
  | taken => exact ⟨h.wakeup_eq, .inl rfl⟩
  | bound => exact ⟨h.wakeup_eq, h.heeded⟩
  | trans _ _ ih ih' => exact ih' (ih h)

end Process

/-- What happens to a world while code runs that leaves the descriptor registered. -/
structure World.Passes (w w' : World σ) : Prop where
  managed_eq : w'.context.managed = w.context.managed
  passage : w.process.Passage w'.process

theorem World.Passes.refl (w : World σ) : w.Passes w := ⟨rfl, .refl _⟩

theorem World.Passes.trans {w w' w'' : World σ} (h : w.Passes w') (h' : w'.Passes w'') :
    w.Passes w'' :=
  ⟨h'.managed_eq.trans h.managed_eq, h.passage.trans h'.passage⟩

theorem World.Passes.of_course {w : World σ} (channel : Channel) {process : Process}
    (h : ∃ notes, w.process.Course notes process) : w.Passes (w.holding channel process) := by
  obtain ⟨notes, h⟩ := h
  exact ⟨rfl, .course h⟩

namespace Code

/-- Code that leaves the descriptor registered which a request to quit shuts. -/
def Heedful (code : Code σ α) : Prop := ∀ w a w', code w = .ok a w' → w.Passes w'

/-- Loyal code does so. -/
theorem Loyal.heedful {code : Code σ α} (h : Loyal code) : Heedful code := by
  intro w a w' hrun
  obtain ⟨notes, hgo⟩ := h w a w' hrun
  exact ⟨hgo.managed_eq, .course hgo.course⟩

theorem Heedful.bind {code : Code σ α} {f : α → Code σ β} (h : Heedful code)
    (hf : ∀ a, Heedful (f a)) : Heedful (code >>= f) := by
  intro w b w'' hrun
  rw [bind_apply] at hrun
  split at hrun
  · next a w' hfirst => exact (h w a w' hfirst).trans (hf a w' b w'' hrun)
  · cases hrun

end Code

namespace Loop

/-! ## The two halves of taking over the signals -/

/-- Binds all signals as the table says. -/
def binding (table : SignalTable (Callback σ)) : Code σ SignalManager := do
  Code.modifySignals fun s => ((), s.clear)
  bindAll table.plan (Signal.all.filter Signal.trappable) {}

/-- Registers the socket to be shut when the process is asked to quit. -/
def registering : Code σ Unit := do
  let socket := (← get).process.socket
  Code.modifySignals fun s => ((), s.setWakeup (some socket))
  Code.preempt

variable {srv : Server σ} {table : SignalTable (Callback σ)} {x y : Stage σ} {w w' : World σ}

/-- A loop that takes over the signals binds them and then registers its socket. -/
theorem takeOver_eq (table : SignalTable (Callback σ)) :
    takeOver table = binding table >>= fun m => registering >>= fun _ => pure m := by
  simp only [takeOver, binding, registering, bind_assoc]

/-- Binding the signals is to install a manager, if no signal disturbs it. -/
theorem binding_of_quiet (h : w.process.arrivals = []) (hrun : w.process.status = .running) :
    binding table w = .ok (SignalManager.install table.plan w.process.signals).1
      { w with process := { w.process with
        signals := (SignalManager.install table.plan w.process.signals).2 } } := by
  rw [binding, Code.bind_apply, Code.modifySignals_apply]
  simp only
  rw [bindAll_of_quiet (by exact h) (by exact hrun)]
  rfl

/-- Nothing else happens while the socket is registered, if no signal arrives. -/
theorem registering_of_quiet (h : w.process.arrivals = []) (hrun : w.process.status = .running) :
    registering w = .ok () { w with process := { w.process with
      signals := w.process.signals.setWakeup (some w.process.socket) } } := by
  rw [registering, Code.get_bind, Code.bind_apply, Code.modifySignals_apply]
  exact preempt_of_quiet h hrun

/-- Behind the registration a request shuts the inbox; one that was there before may not have. -/
theorem heeds_of_registering (hsocket : 0 ≤ w.process.socket) (h : registering w = .ok () w') :
    w'.context = w.context ∧ w'.process.Heeds w.process.signals.quitRequest := by
  unfold registering at h
  rw [Code.get_bind, Code.bind_apply, Code.modifySignals_apply] at h
  simp only at h
  obtain ⟨hcontext, notes, hcourse⟩ := Code.disturb_ok Process.Course.preempt h
  have hregistered : Process.Heeds w.process.signals.quitRequest
      { w.process with signals := w.process.signals.setWakeup (some w.process.socket) } := by
    refine ⟨?_, .inr (.inr rfl)⟩
    show (some w.process.socket).filter (0 ≤ ·) = some w.process.socket
    exact Option.filter_some_pos (decide_eq_true hsocket)
  exact ⟨hcontext, hregistered.course hcourse⟩

/-! ## A run -/

/-- The code of a server leaves the descriptor registered. -/
structure Heedful (srv : Server σ) (table : SignalTable (Callback σ)) : Prop where
  setup : srv.setup.Heedful
  handlers {name : String} {handler : Handler σ} (h : srv.handlers.get? name = some handler)
    (args : List Octets) : (handler args).Heedful
  callbacks {signal : Signal} {run : Callback σ} (h : table.callback? signal = some run) :
    (run signal).Heedful

section
variable (hsrv : Heedful srv table)
include hsrv

theorem Heedful.dispatch (e : Envelope) : (dispatch srv.handlers e).Heedful := by
  refine Code.Heedful.bind (fun w a w' h => ?_) fun _ => ?_
  · cases h
    exact ⟨rfl, .refl _⟩
  · split
    · exact (Code.Loyal.throw _).heedful
    · next handler hget => exact hsrv.handlers hget _

theorem Heedful.callBack (signal : Signal) : (callBack table signal).Heedful := by
  unfold Loop.callBack
  split
  · next run hget => exact hsrv.callbacks hget
  · exact (Code.Loyal.pure ()).heedful

/-- **A step that does not end the loop** leaves the descriptor registered. -/
theorem Heedful.leads (h : Leads srv table x y) (hy : y.isLeft = false) :
    x.world.Passes y.world := by
  have hread {w : World σ} {channel : Channel} {process : Process} {r : Option Reading}
      (h : w.process.readOn Channel.chunkSize = (r, process)) :
      w.Passes (w.holding channel process) := by
    refine .of_course channel ?_
    have hcourse := Process.Course.readOn w.process Channel.chunkSize
    rwa [h] at hcourse
  cases h with
  | prepared h => exact hsrv.setup _ _ _ h
  | handled h => exact hsrv.dispatch _ _ _ _ h
  | called h => exact hsrv.callBack _ _ _ _ h
  | answered => exact ⟨rfl, .refl _⟩
  | unanswered | item | interrupted | unmanaged | looks | again => exact .refl _
  | preempted w => exact .of_course _ (Process.Course.preempt w.process)
  | dry h | broken h | onward h => exact hread h
  | @collected w _ => exact .of_course _ ⟨_, .collect w.process⟩
  | closed | excused | failed | waits | stops | setupHalts | handlingHalts | callingHalts =>
    cases hy

theorem Heedful.reaches (h : Reaches srv table x y) (hy : y.isLeft = false) :
    x.world.Passes y.world := by
  induction h with
  | refl => exact .refl _
  | @next y _ ih =>
    cases hleft : y.isLeft with
    | false => exact (ih hleft).trans (hsrv.leads (next_leads hleft) hy)
    | true =>
      cases y with
      | left r => cases hy
      | _ => cases hleft

end

/-- A loop that looks whether it is to end, and reads after that, has not been asked to quit when it
looked. -/
theorem quitRequest_of_checking (hmanaged : w.context.managed = true)
    (h : Reaches srv table (.checking w) (.reading w')) : w.process.signals.quitRequest = none := by
  obtain ⟨exit, w'', hlook⟩ := checkQuit_ok w
  obtain heq | hrest := h.cases_head
  · cases heq
  rw [Stage.next, hlook] at hrest
  cases exit with
  | none => exact (checkQuit_none hlook).2 hmanaged
  | some exit => cases hrest.of_left

section
variable {config : Config} {server : σ} {process : Process} {m : SignalManager} {w₁ w₀ : World σ}

/-- The signals are taken over when they are bound and the socket is registered. -/
theorem takeOver_of_binding
    (hbind : binding (tableOf srv config server) (start server config process) = .ok m w₁)
    (hregister : registering w₁ = .ok () w₀) :
    takeOver (tableOf srv config server) (start server config process) = .ok m w₀ := by
  rw [takeOver_eq, Code.bind_apply, hbind]
  simp only
  rw [Code.bind_apply, hregister]
  rfl

/-- From the registration to the end of the loop a request to quit shuts the inbox. -/
theorem heeds_of_reaches (hsocket : 0 ≤ process.socket)
    (hbind : binding (tableOf srv config server) (start server config process) = .ok m w₁)
    (hregister : registering w₁ = .ok () w₀)
    (hsrv : Heedful srv (tableOf srv config server)) {x : Stage σ}
    (h : Reaches srv (tableOf srv config server) (.setup w₀) x) (hx : x.isLeft = false) :
    x.world.process.Heeds w₁.process.signals.quitRequest := by
  have hbound : 0 ≤ w₁.process.socket := by
    obtain ⟨-, hsocket₁⟩ := bindAll_keeps hbind
    rwa [hsocket₁]
  obtain ⟨-, hheeds⟩ := heeds_of_registering hbound hregister
  exact hheeds.passage (hsrv.reaches h hx).passage

/-- **A read heeds every request to quit but one that came before the registration.** The signals of
a server are managed, its end of the pair is a descriptor, and its code leaves that one registered;
signals may arrive at any time. The server has bound its signals, which left it in the world `w₁`,
and then registered its socket, which left it in `w₀`. At every moment at which one of its reads
waits there is no request to quit, or the inbox is shut, or it is the request that was there in
`w₁`; and if the loop has looked whether it is to end before that read, there is no request or the
inbox is shut. -/
theorem reads_heed (hmanaged : config.manageSignals = true) (hsocket : 0 ≤ process.socket)
    (hbind : binding (tableOf srv config server) (start server config process) = .ok m w₁)
    (hregister : registering w₁ = .ok () w₀)
    (hsrv : Heedful srv (tableOf srv config server)) :
    takeOver (tableOf srv config server) (start server config process) = .ok m w₀ ∧
    ∀ w p, Reaches srv (tableOf srv config server) (.setup w₀) (.reading w) →
      w.process.WaitsIn Channel.chunkSize p →
        (p.signals.quitRequest = none ∨ p.inbox.shut = true ∨
          p.signals.quitRequest = w₁.process.signals.quitRequest) ∧
        ∀ w', Reaches srv (tableOf srv config server) (.setup w₀) (.checking w') →
          Reaches srv (tableOf srv config server) (.checking w') (.reading w) →
            p.signals.quitRequest = none ∨ p.inbox.shut = true := by
  have htake := takeOver_of_binding hbind hregister
  have hmanaged₀ : w₀.context.managed = true := by
    rw [(takeOver_ok htake).1]
    exact hmanaged
  refine ⟨htake, fun w p hreach hwaits => ?_⟩
  obtain ⟨notes, hcourse⟩ := hwaits.course
  have hheeds := heeds_of_reaches hsocket hbind hregister hsrv hreach rfl
  refine ⟨(hheeds.course hcourse).heeded, ?_⟩
  intro w' hlook hread
  have hnone := quitRequest_of_checking ((hsrv.reaches hlook rfl).managed_eq.trans hmanaged₀) hread
  have hlooked := heeds_of_reaches hsocket hbind hregister hsrv hlook rfl
  have hclear : w'.process.Heeds none := ⟨hlooked.wakeup_eq, .inl hnone⟩
  obtain h | h | h := ((hclear.passage (hsrv.reaches hread rfl).passage).course hcourse).heeded
  · exact .inl h
  · exact .inr h
  · exact .inl h

/-- **So it is in a run of the server** that comes to its end. The setup and the loop of that run
end as the server does; every read of theirs is reached on the way to this end, and heeds every
request to quit but one that came before the registration. -/
theorem serve_heeds (hmanaged : config.manageSignals = true) (hsocket : 0 ≤ process.socket)
    (hbind : binding (tableOf srv config server) (start server config process) = .ok m w₁)
    (hregister : registering w₁ = .ok () w₀)
    (hsrv : Heedful srv (tableOf srv config server)) {exit : LoopExit}
    (hserve : serve srv config (start server config process) = .ok exit w') :
    ∃ w₂, (do srv.setup; run srv.handlers (tableOf srv config server) : Code σ LoopExit) w₀ =
        .ok exit w₂ ∧
      ∀ w, Reaches srv (tableOf srv config server) (.setup w₀) (.reading w) →
        Reaches srv (tableOf srv config server) (.reading w) (.left (.ok exit w₂)) ∧
        ∀ p, w.process.WaitsIn Channel.chunkSize p →
          p.Heeds w₁.process.signals.quitRequest := by
  obtain ⟨w₂, hrun⟩ := run_of_serve hmanaged (takeOver_of_binding hbind hregister) hserve
  refine ⟨w₂, hrun, fun w hreach => ⟨?_, fun p hwaits => ?_⟩⟩
  · obtain h | h := hreach.linear (reaches_run_ok hrun)
    · exact h
    · cases h.of_left
  · obtain ⟨notes, hcourse⟩ := hwaits.course
    exact (heeds_of_reaches hsocket hbind hregister hsrv hreach rfl).course hcourse

end

/-! The loop of `listener` waits for the rest of a frame before it is asked to quit. -/

theorem listener_heedful : Heedful listener (tableOf listener {} ()) where
  setup := (Code.Loyal.pure ()).heedful
  handlers h := by cases h
  callbacks {signal} _ h := by cases signal <;> cases h

theorem reads_heed_in_a_partial_frame :
    Reaches listener (tableOf listener {} ()) (.setup listening) (.reading partway) ∧
      partway.process.WaitsIn Channel.chunkSize partway.process ∧
      ∀ p, partway.process.WaitsIn Channel.chunkSize p →
        p.signals.quitRequest = none ∨ p.inbox.shut = true := by
  have hplan : (tableOf listener {} ()).plan = [(.int, .quit), (.term, .quit)] := by decide
  have hinstall := SignalManager.install_snd (tableOf listener {} ()).plan {}
  have hbind : binding (tableOf listener {} ()) (start () {} cutShort) = _ :=
    binding_of_quiet rfl rfl
  have hregister : registering { start () {} cutShort with process := { cutShort with
      signals := (SignalManager.install (tableOf listener {} ()).plan {}).2 } } =
        .ok () listening := by
    rw [registering_of_quiet rfl rfl, hinstall, hplan]
    rfl
  obtain ⟨-, hreads⟩ := reads_heed rfl (by decide) hbind hregister listener_heedful
  have hreach : Reaches listener (tableOf listener {} ()) (.setup listening) (.reading partway) :=
    Reaches.refl.next.next.next.next.next.next
  refine ⟨hreach, .begins ⟨nofun, fun _ => rfl⟩, fun p hwaits => ?_⟩
  obtain h | h | h := (hreads partway p hreach hwaits).1
  · exact .inl h
  · exact .inr h
  · exact .inl (h.trans (congrArg SignalState.quitRequest hinstall))

/-! ## A request that comes too early -/

/-- **A request that is there when the socket is registered is not heeded** by the first read, if
the process has nothing to read and its server nothing to set up: the read waits, the request is
there, and the inbox is open. It waits for ever if nothing more happens. -/
theorem waits_unheeded {signal : Signal} (hrequest : w.process.signals.quitRequest = some signal)
    (hrun : w.process.status = .running) (hquiet : w.process.arrivals = [])
    (hinbox : w.process.inbox = {}) (hbuffer : w.context.channel.settled? = none)
    (hsetup : srv.setup = pure ()) :
    ∃ w₀, registering w = .ok () w₀ ∧ Reaches srv table (.setup w₀) (.reading w₀) ∧
      w₀.process.WaitsIn Channel.chunkSize w₀.process ∧
      w₀.process.signals.quitRequest = some signal ∧ w₀.process.inbox.shut = false ∧
      (w.process.coming = [] → (w₀.process.readOn Channel.chunkSize).1 = none) := by
  have hregister := registering_of_quiet hquiet hrun
  generalize hw : ({ w with process := { w.process with
    signals := w.process.signals.setWakeup (some w.process.socket) } } : World σ) = w₀ at hregister
  have hquiet₀ : w₀.process.preempt = w₀.process := by
    rw [Process.preempt, ← hw]
    simp only [hquiet]
  have hpoised : Reaches srv table (.setup w₀) (.poised w₀) := by
    refine (Leads.prepared (by rw [hsetup]; rfl)).reaches.trans (Leads.unanswered ?_).reaches
    rw [← hw]
    exact hbuffer
  have hreading : Reaches srv table (.poised w₀) _ := (Leads.preempted w₀).reaches
  rw [hquiet₀] at hreading
  have hinbox₀ : w₀.process.inbox = {} := by
    rw [← hw]
    exact hinbox
  have hstays : w₀.process.Stays Channel.chunkSize false := by
    refine ⟨fun signal hended => ?_, fun _ => ?_⟩
    · rw [← hw] at hended
      cases hrun.symm.trans hended
    · show w₀.process.readNow Channel.chunkSize = none
      rw [Process.readNow, hinbox₀]
      rfl
  have hwaits : w₀.process.WaitsIn Channel.chunkSize w₀.process := .begins hstays
  refine ⟨w₀, hregister, hpoised.trans hreading, hwaits, ?_, by rw [hinbox₀], fun hnothing => ?_⟩
  · rw [← hw]
    exact hrequest
  · have hcoming : w₀.process.coming = [] := by
      rw [← hw]
      exact hnothing
    rw [hwaits.readOn_eq, hcoming]
    rfl

/-- The process of `listener`, with nothing to read. A signal arrives when all signals are bound. -/
def hurried : Process where
  arrivals := List.replicate 24 [] ++ [[.term]]

/-- Whether some signals are bound in a running process that has been asked to quit meanwhile and
has nothing to read. -/
def bindsLate (code : Code Unit SignalManager) (w : World Unit) : Bool :=
  match code w with
  | .ok _ w =>
    w.process.signals.quitRequest = some .term && w.process.status = .running &&
      w.process.arrivals = [] && w.process.inbox = {} && w.context.channel.settled?.isNone
  | .error _ _ => false

/-- **A request to quit is lost in between.** The signal arrives when its handler has been bound,
and before the socket is registered. The first read waits, with the request there and the inbox
open, and nothing that the signal has done ends it. -/
theorem request_unheeded :
    (∃ m w₁ w₀ w, binding (tableOf listener {} ()) (start () {} hurried) = .ok m w₁ ∧
      registering w₁ = .ok () w₀ ∧
      Reaches listener (tableOf listener {} ()) (.setup w₀) (.reading w) ∧
      w.process.WaitsIn Channel.chunkSize w.process ∧
      w.process.signals.quitRequest = some .term ∧ w.process.inbox.shut = false) ∧
    (match serve listener {} (start () {} hurried) with
      | .error .waiting w => w.process.signals.quitRequest = some .term
      | _ => false) = true := by
  have hbinds : bindsLate (binding (tableOf listener {} ())) (start () {} hurried) = true := by
    decide +kernel
  refine ⟨?_, by decide +kernel⟩
  unfold bindsLate at hbinds
  split at hbinds
  · next m w₁ hbind =>
    simp only [Bool.and_eq_true, decide_eq_true_eq, Option.isNone_iff_eq_none] at hbinds
    obtain ⟨⟨⟨⟨hrequest, hrun⟩, hquiet⟩, hinbox⟩, hbuffer⟩ := hbinds
    obtain ⟨w₀, hregister, hreach, hwaits, hasked, hopen, -⟩ :=
      waits_unheeded hrequest hrun hquiet hinbox hbuffer (show listener.setup = pure () from rfl)
    exact ⟨m, w₁, w₀, w₀, hbind, hregister, hreach, hwaits, hasked, hopen⟩
  · cases hbinds

end Loop

end Overseer
