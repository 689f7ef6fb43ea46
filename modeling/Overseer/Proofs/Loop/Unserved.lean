import Overseer.Proofs.Loop.Run
import Overseer.Proofs.Loop.TakeOver
import Overseer.Proofs.Loop.Within

/-!
# What is left unserved when a loop reads

A loop serves at the end of a turn what it was asked for: it takes up the marks, calls the callbacks
and looks whether it is to quit. It does not look again before it reads, so what was asked for
elsewhere waits for the end of the turn that follows, or for ever if the stream ends before.

`requests_served` says what may wait: in the first call for a message whatever the setup has left,
in any other one nothing but the marks that were made by the callbacks of the turn before. The
invariant is `Clear`: behind the look for marks only callbacks can have made new ones.
`requests_unserved` shows that all of that does wait.
-/

namespace Overseer

namespace SignalState

/-- Looking for marks takes up those of the signals it looks at. -/
theorem scan_snd (signals : List Signal) (pending : Signal → Bool) :
    (scan (fun _ => []) signals pending).2 =
      fun signal => !decide (signal ∈ signals) && pending signal := by
  induction signals generalizing pending with
  | nil => rfl
  | cons other signals ih =>
    show (scan (fun _ => []) signals (mark pending other false)).2 = _
    rw [ih]
    funext signal
    by_cases heq : signal = other
    · simp [mark, heq]
    · simp [mark, heq, List.mem_cons]

theorem deliver_pending {s : SignalState} {signal : Signal} (other : Signal)
    (h : s.pending signal = true) : (s.deliver other).2.pending signal = true := by
  unfold deliver
  cases s.dispositions other with
  | deferred =>
    show (if signal = other then true else s.pending signal) = true
    split
    · rfl
    · exact h
  | default | ignore | quit | foreign => exact h

/-- The delivery of signals takes up no mark. -/
theorem Delivered.pending {s s' : SignalState} {signal : Signal} (h : s.Delivered s')
    (hs : s.pending signal = true) : s'.pending signal = true := by
  obtain ⟨signals, rfl⟩ := h
  induction signals generalizing s with
  | nil => exact hs
  | cons other signals ih => exact ih (deliver_pending other hs)

/-- **No mark is left** when they are taken up. -/
theorem takePending_pending (s : SignalState) (signal : Signal) :
    s.takePending.2.pending signal = false := by
  show (scan (fun _ => []) Signal.all s.pending).2 signal = false
  rw [scan_snd]
  have hmem : signal ∈ Signal.all := by cases signal <;> decide
  simp [hmem]

end SignalState

namespace Loop

variable {σ : Type}

/-- What the code of a server cannot take back: that the signals are managed, and that the loop was
told to quit. -/
structure StaysTold (w w' : World σ) : Prop where
  managed (h : w.context.managed = true) : w'.context.managed = true
  done (h : w.context.done = true) : w'.context.done = true

theorem StaysTold.of_context {w w' : World σ} (h : w'.context = w.context) : StaysTold w w' := by
  constructor <;> rw [h] <;> exact id

theorem StaysTold.refl (w : World σ) : StaysTold w w := .of_context rfl

theorem StaysTold.trans {w w' w'' : World σ} (h : StaysTold w w') (h' : StaysTold w' w'') :
    StaysTold w w'' :=
  ⟨h'.managed ∘ h.managed, h'.done ∘ h.done⟩

namespace Stage

/-- The stages of a call for the next message. A loop that the end of the stream has ended is still
at the last one. -/
def hears : Stage σ → Bool
  | receiving _ | poised _ | reading _ | received _ _ | left (.ok .peerClosed _) => true
  | setup _ | handling _ _ | deferring _ | calling _ _ | checking _
  | left (.ok .quit _) | left (.ok (.signalled _) _) | left (.error _ _) => false

/-- The signals whose callbacks are still to run, behind the look for marks. -/
def uncalled : Stage σ → Option (List Signal)
  | calling signals _ => some signals
  | checking _ => some []
  | setup _ | receiving _ | poised _ | reading _ | received _ _ | handling _ _ | deferring _
  | left _ => none

end Stage

section
variable (srv : Server σ) (table : SignalTable (Callback σ))

/-- A call for the next message that began in a world has come to a stage. -/
inductive Listens (w : World σ) : Stage σ → Prop
  | begins : Listens w (.receiving w)
  | goesOn {x : Stage σ} (h : Listens w x) (hx : (x.next srv table).hears = true) :
      Listens w (x.next srv table)

/-- A callback of the turn has marked a signal, and after it callbacks have run up to where those of
some signals are left. -/
def MarkedInCallback (w₀ : World σ) (left : List Signal) (w : World σ) (signal : Signal) : Prop :=
  ∃ other signals w₁ w₂, Reaches srv table (.setup w₀) (.calling (other :: signals ++ left) w₁) ∧
    callBack table other w₁ = .ok () w₂ ∧
    w₁.process.signals.pending signal = false ∧ w₂.process.signals.pending signal = true ∧
    signals.forM (callBack table) w₂ = .ok () w

/-- All marks were made by callbacks of the turn. -/
def Clear (w₀ : World σ) (left : List Signal) (w : World σ) : Prop :=
  ∀ signal, w.process.signals.pending signal = true →
    MarkedInCallback srv table w₀ left w signal

/-- A world in which a call for the next message may begin: that which the setup has left, or one in
which the loop was not told to quit and all marks were made by callbacks of the turn before. -/
def Opens (w₀ w : World σ) : Prop :=
  srv.setup w₀ = .ok () w ∨ w.context.done = false ∧ Clear srv table w₀ [] w

end

variable {srv : Server σ} {table : SignalTable (Callback σ)} {w w₀ w' : World σ} {x y : Stage σ}

/-! ## What a step does -/

/-- Looking for a request in vain changes nothing. -/
theorem pendingQuit_none (h : pendingQuit w = .ok none w') : w' = w := by
  rw [pendingQuit_apply] at h
  split at h
  · injection h with hrequest hw
    rw [← hw, takeQuit_of_none hrequest]
    rfl
  · injection h with _ hw
    exact hw.symm

theorem pendingQuit_context {request : Option Signal} (h : pendingQuit w = .ok request w') :
    w'.context = w.context := by
  rw [pendingQuit_apply] at h
  split at h <;> cases h <;> rfl

theorem checkQuit_context {exit : Option LoopExit} (h : checkQuit w = .ok exit w') :
    w'.context = w.context := by
  unfold checkQuit at h
  rw [Code.bind_apply] at h
  split at h
  · next request w₁ hlook =>
    rw [← pendingQuit_context hlook]
    cases request <;> cases h <;> rfl
  · cases h

/-- A loop that goes on was not told to quit. -/
theorem done_of_checkQuit_none (h : checkQuit w = .ok none w') : w.context.done = false := by
  have hnone := (checkQuit_none h).2
  rw [checkQuit_of_none hnone] at h
  cases hdone : w.context.done with
  | false => rfl
  | true =>
    rw [hdone] at h
    cases h

/-- It is not the end of the stream that a loop finds when it looks whether it is to end. -/
theorem checkQuit_ne_peerClosed (h : checkQuit w = .ok (some .peerClosed) w') : False := by
  by_cases hnone : w.context.managed = true → w.process.signals.quitRequest = none
  · rw [checkQuit_of_none hnone] at h
    cases hdone : w.context.done <;> rw [hdone] at h <;> cases h
  · obtain ⟨hmanaged, hrequest⟩ := Classical.not_imp.1 hnone
    obtain ⟨signal, hrequest⟩ := Option.ne_none_iff_exists'.1 hrequest
    obtain ⟨w'', hsome⟩ := checkQuit_of_some hmanaged hrequest
    cases h.symm.trans hsome

/-- **Nothing is taken back** on the way, if the code of the server takes nothing back. -/
theorem Leads.staysTold (hsrv : ServerWithin StaysTold srv table) (h : Leads srv table x y) :
    StaysTold x.world y.world := by
  have hdispatch : ∀ e, (dispatch srv.handlers e).Within StaysTold := by
    intro e w
    unfold dispatch
    rw [Code.after, Code.bind_apply]
    cases hget : srv.handlers.get? e.message.name with
    | none => exact ⟨id, id⟩
    | some handler =>
      have hkept := hsrv.handlers hget e.message.args
        { w with context := { w.context with descriptor := e.descriptor } }
      exact ⟨hkept.managed, hkept.done⟩
  have hcall : ∀ signal, (callBack table signal).Within StaysTold := by
    intro signal w
    unfold callBack
    split
    · next run hget => exact hsrv.callbacks hget w
    · exact .refl w
  cases h with
  | prepared h => exact hsrv.setup.of_ok h
  | setupHalts h => exact hsrv.setup.of_error h
  | handled h => exact (hdispatch _).of_ok h
  | handlingHalts h => exact (hdispatch _).of_error h
  | called h => exact (hcall _).of_ok h
  | callingHalts h => exact (hcall _).of_error h
  | closed h | excused _ h | failed _ h => exact .of_context (pendingQuit_context h)
  | stops h => exact .of_context (checkQuit_context h)
  | answered | unanswered | preempted | dry | broken | onward | item | interrupted | waits
  | collected | unmanaged | looks | again => exact ⟨id, id⟩

theorem Reaches.staysTold (hsrv : ServerWithin StaysTold srv table) (h : Reaches srv table x y) :
    StaysTold x.world y.world := by
  induction h with
  | refl => exact .refl _
  | @next y _ ih =>
    cases hleft : y.isLeft with
    | false => exact ih.trans ((next_leads hleft).staysTold hsrv)
    | true =>
      cases y with
      | left r => exact ih
      | _ => cases hleft

/-! ## A call for the next message -/

/-- **Within a call nothing but the delivery of signals happens** to what the loop was asked for. -/
theorem Leads.heard (h : Leads srv table x y) (hx : x.hears = true) (hy : y.hears = true) :
    y.world.context.done = x.world.context.done ∧
      x.world.process.signals.Delivered y.world.process.signals := by
  have hread {w : World σ} {process : Process} {r : Option Reading}
      (h : w.process.readOn Channel.chunkSize = (r, process)) :
      w.process.signals.Delivered process.signals := by
    have hdelivered := Process.delivered_readOn w.process Channel.chunkSize
    rwa [h] at hdelivered
  cases h with
  | answered | unanswered => exact ⟨rfl, .refl _⟩
  | preempted w => exact ⟨rfl, Process.delivered_preempt w.process⟩
  | dry h | broken h | onward h => exact ⟨rfl, hread h⟩
  | @closed w w' request h =>
    cases request with
    | none =>
      cases pendingQuit_none h
      exact ⟨rfl, .refl _⟩
    | some signal => cases hy
  | prepared | handled | collected | unmanaged | called | looks | again | stops | setupHalts
  | handlingHalts | callingHalts => cases hx
  | item | interrupted | excused | failed | waits => cases hy

theorem Listens.hears (h : Listens srv table w x) : x.hears = true := by
  cases h with
  | begins => rfl
  | goesOn _ hx => exact hx

theorem Listens.heard (h : Listens srv table w x) :
    x.world.context.done = w.context.done ∧
      w.process.signals.Delivered x.world.process.signals := by
  induction h with
  | begins => exact ⟨rfl, .refl _⟩
  | @goesOn x h hx ih =>
    cases hleft : x.isLeft with
    | false =>
      obtain ⟨hdone, hdelivered⟩ := (next_leads hleft).heard h.hears hx
      exact ⟨hdone.trans ih.1, ih.2.trans hdelivered⟩
    | true =>
      cases x with
      | left r => exact ih
      | _ => cases hleft

/-! ## Between two calls -/

/-- Nothing comes before the setup. -/
theorem Reaches.eq_setup (h : Reaches srv table x (.setup w)) : x = .setup w := by
  generalize hy : Stage.setup w = y at h
  cases h with
  | refl => rfl
  | @next x' _ =>
    cases hleft : x'.isLeft with
    | false =>
      have hlead : Leads srv table x' (x'.next srv table) := next_leads hleft
      rw [← hy] at hlead
      cases hlead
    | true =>
      cases x' with
      | left r => cases hy
      | _ => cases hleft

/-- **A callback makes its own marks**, and keeps account of those that were made before. -/
theorem Clear.called {signal : Signal} {signals : List Signal}
    (h : Clear srv table w₀ (signal :: signals) w)
    (hx : Reaches srv table (.setup w₀) (.calling (signal :: signals) w))
    (hcall : callBack table signal w = .ok () w') : Clear srv table w₀ signals w' := by
  intro marked hmarked
  cases hbefore : w.process.signals.pending marked with
  | false => exact ⟨signal, [], w, w', hx, hcall, hbefore, hmarked, rfl⟩
  | true =>
    obtain ⟨other, others, w₁, w₂, hreach, hother, hfalse, htrue, hrest⟩ := h marked hbefore
    refine ⟨other, others ++ [signal], w₁, w₂, ?_, hother, hfalse, htrue, ?_⟩
    · simpa using hreach
    · show (forM (others ++ [signal]) (callBack table)) w₂ = _
      rw [List.forM_append, Code.bind_apply, show forM others (callBack table) w₂ = _ from hrest]
      show ((callBack table signal >>= fun _ => pure ()) w) = _
      rw [Code.bind_apply, hcall]
      rfl

/-- **Every stage keeps account**: behind the look for marks of the callbacks that have run, and
within a call of the world in which it began. -/
theorem account_of_reaches (hsrv : ServerWithin StaysTold srv table)
    (hmanaged : w₀.context.managed = true) (hx : Reaches srv table (.setup w₀) x) :
    (x.hears = true → ∃ w, Reaches srv table (.setup w₀) (.receiving w) ∧ Opens srv table w₀ w ∧
      Listens srv table w x) ∧
    ∀ left, x.uncalled = some left → Clear srv table w₀ left x.world := by
  induction hx with
  | refl => exact ⟨nofun, nofun⟩
  | @next x hx ih =>
    obtain ⟨hhears, hcalls⟩ := ih
    cases hleft : x.isLeft with
    | true =>
      cases x with
      | left r => exact ⟨hhears, hcalls⟩
      | _ => cases hleft
    | false =>
      have hnext := hx.next
      have hlead : Leads srv table x (x.next srv table) := next_leads hleft
      have hgoesOn : x.hears = true → (x.next srv table).hears = true → ∃ w,
          Reaches srv table (.setup w₀) (.receiving w) ∧ Opens srv table w₀ w ∧
            Listens srv table w (x.next srv table) := by
        intro hthis hthat
        obtain ⟨w, hreach, hopens, hlistens⟩ := hhears hthis
        exact ⟨w, hreach, hopens, hlistens.goesOn hthat⟩
      generalize x.next srv table = y at hnext hlead hgoesOn
      cases hlead with
      | prepared h =>
        cases hx.eq_setup
        exact ⟨fun _ => ⟨_, hnext, .inl h, .begins⟩, nofun⟩
      | again h =>
        exact ⟨fun _ => ⟨_, hnext, .inr ⟨done_of_checkQuit_none h, hcalls [] rfl⟩, .begins⟩, nofun⟩
      | answered | unanswered | preempted | dry | broken | onward | closed =>
        exact ⟨hgoesOn rfl, nofun⟩
      | item | interrupted | excused | failed | waits | handled | setupHalts | handlingHalts
      | callingHalts => exact ⟨nofun, nofun⟩
      | @stops w w' exit h =>
        refine ⟨fun hhears => ?_, nofun⟩
        cases exit with
        | peerClosed => exact (checkQuit_ne_peerClosed h).elim
        | quit | signalled => cases hhears
      | @collected w h =>
        refine ⟨nofun, fun left _ signal hmarked => ?_⟩
        cases (SignalState.takePending_pending w.process.signals signal).symm.trans hmarked
      | unmanaged h => cases h.symm.trans ((hx.staysTold hsrv).managed hmanaged)
      | called h =>
        refine ⟨nofun, fun left hleft => ?_⟩
        cases hleft
        exact (hcalls _ rfl).called hx h
      | looks w => exact ⟨nofun, fun left hleft => hcalls left hleft⟩

/-! ## The whole run -/

/-- Where a turn leads that comes to an end. -/
def Stage.ofTurn : Option LoopExit → World σ → Stage σ
  | none, w => .receiving w
  | some exit, w => .left (.ok exit w)

/-- The look at the end of a turn. -/
theorem reaches_checking {exit : Option LoopExit} (h : checkQuit w = .ok exit w') :
    Reaches srv table (.checking w) (.ofTurn exit w') := by
  cases exit with
  | none =>
    cases (checkQuit_none h).1
    exact (Leads.again h).reaches
  | some exit => exact (Leads.stops h).reaches

/-- The callbacks of a turn. -/
theorem reaches_calling {signals : List Signal} (h : signals.forM (callBack table) w = .ok () w') :
    Reaches srv table (.calling signals w) (.checking w') := by
  induction signals generalizing w with
  | nil =>
    cases h
    exact (Leads.looks _).reaches
  | cons signal signals ih =>
    rw [show (signal :: signals).forM (callBack table) =
      (callBack table signal >>= fun _ => signals.forM (callBack table)) from rfl,
      Code.bind_apply] at h
    split at h
    · next hcall =>
      exact Reaches.trans (Leads.called hcall).reaches (ih h)
    · cases h

/-- The end of a turn, behind a message or an interrupted read. -/
theorem reaches_deferring {exit : Option LoopExit}
    (h : (runDeferred table >>= fun _ => checkQuit) w = .ok exit w') :
    Reaches srv table (.deferring w) (.ofTurn exit w') := by
  rw [Code.bind_apply] at h
  split at h
  · next w₁ hrun =>
    refine Reaches.trans ?_ (reaches_checking h)
    unfold runDeferred at hrun
    rw [Code.get_bind] at hrun
    split at hrun
    · next hmanaged =>
      rw [Code.bind_apply, Code.takePending_apply] at hrun
      exact Reaches.trans (Leads.collected hmanaged).reaches (reaches_calling hrun)
    · next hmanaged =>
      have hunmanaged := Bool.eq_false_iff.2 hmanaged
      exact Reaches.trans (Leads.unmanaged hunmanaged).reaches (reaches_calling hrun)
  · cases h

/-- What was received decides where the turn leads. -/
theorem reaches_received {r : Reception Envelope} {exit : Option LoopExit}
    (h : afterReceiving srv.handlers table r w = .ok exit w') :
    Reaches srv table (.received r w) (.ofTurn exit w') := by
  cases r with
  | item e =>
    simp only [afterReceiving] at h
    rw [Code.bind_apply] at h
    split at h
    · next w₁ hrun =>
      exact (Leads.item e w).reaches.trans
        ((Leads.handled hrun).reaches.trans (reaches_deferring h))
    · cases h
  | ended =>
    simp only [afterReceiving] at h
    rw [Code.bind_apply] at h
    split at h
    · next request w₁ hlook =>
      cases h
      exact (Leads.closed hlook).reaches
    · cases h
  | failed e =>
    by_cases he : e = .interrupted
    · subst he
      exact (Leads.interrupted w).reaches.trans (reaches_deferring h)
    · rw [afterReceiving_of_failed he, Code.bind_apply] at h
      split at h
      · next request w₁ hlook =>
        cases request with
        | none => cases h
        | some signal =>
          cases h
          exact (Leads.excused he hlook).reaches
      · cases h
  | waiting => cases h

/-- **A turn that comes to an end shows in the stages**, whatever the code of the server does. -/
theorem reaches_pass {exit : Option LoopExit} (h : pass srv.handlers table w = .ok exit w') :
    Reaches srv table (.receiving w) (.ofTurn exit w') := by
  generalize hout : Channel.nextFrame Process.transport w.context.channel w.process = out
  obtain ⟨r, channel, process⟩ := out
  have hreach : Reaches srv table (.receiving w)
      (.received r.toEnvelope (w.holding channel process)) :=
    reaches_of_fetches ((Channel.fetches_iff Process.transport_lawful).2 hout)
  refine hreach.trans (reaches_received ?_)
  rw [pass_eq, Code.bind_apply, Code.receive_apply hout] at h
  generalize r.toEnvelope = received at h ⊢
  cases received with
  | item | ended | failed => exact h
  | waiting => cases h

/-- **So does a loop that comes to an end.** -/
theorem reaches_run_ok {exit : LoopExit}
    (h : (do srv.setup; run srv.handlers table : Code σ LoopExit) w = .ok exit w') :
    Reaches srv table (.setup w) (.left (.ok exit w')) := by
  have hwithin : ∀ turns {w : World σ}, within srv.handlers table turns w = .ok exit w' →
      Reaches srv table (.receiving w) (.left (.ok exit w')) := by
    intro turns
    induction turns with
    | zero => exact nofun
    | succ turns ih =>
      intro w h
      rw [within, Code.bind_apply] at h
      split at h
      · next exit' w₁ hpass =>
        have hturn := reaches_pass hpass
        cases exit' with
        | none => exact hturn.trans (ih h)
        | some exit' =>
          cases h
          exact hturn
      · cases h
  rw [Code.bind_apply] at h
  split at h
  · next w₁ hsetup => exact (Leads.prepared hsetup).reaches.trans (hwithin _ h)
  · cases h

section
variable {config : Config} {server : σ} {process : Process} {m : SignalManager}

/-- A server serves as its loop has ended. -/
theorem run_of_serve {exit : LoopExit} (hmanaged : config.manageSignals = true)
    (htake : takeOver (tableOf srv config server) (start server config process) = .ok m w₀)
    (h : serve srv config (start server config process) = .ok exit w') :
    ∃ w, (do srv.setup; run srv.handlers (tableOf srv config server) : Code σ LoopExit) w₀ =
      .ok exit w := by
  rw [serve_of_managed hmanaged, Code.bind_apply, htake] at h
  simp only [restoring, hooked] at h
  cases hrun : (do srv.setup; run srv.handlers (tableOf srv config server) :
      Code σ LoopExit) w₀ with
  | ok exit' w =>
    refine ⟨w, ?_⟩
    rw [hrun] at h
    simp only [finalizing] at h
    cases hfinal : srv.finalize w with
    | ok _ _ =>
      rw [hfinal] at h
      cases h
      rfl
    | error halt _ =>
      rw [hfinal] at h
      cases halt <;> cases h
      rfl
  | error halt w =>
    rw [hrun] at h
    cases halt with
    | failed e =>
      simp only [finalizing] at h
      cases hfinal : srv.finalize w with
      | ok _ _ =>
        rw [hfinal] at h
        cases h
      | error halt _ =>
        rw [hfinal] at h
        cases halt <;> cases h
    | panicked | ended | waiting => cases h

/-- **What a loop may leave unserved when it reads.** The signals of the server are managed, and its
code takes back neither that nor that the loop was told to quit; besides that it may do anything.
Whenever the loop is in a call for the next message, up to the end of the stream, nothing has
happened since the call began, in a world `w`, but the delivery of signals. Either `w` is what the
setup has left, so the call is the first one; or nothing has told the loop to quit up to now, and
every signal that was marked in `w` was marked by a callback of the turn before. A server that ends
as `PeerClosed` ends in such a call. -/
theorem requests_served (hmanaged : config.manageSignals = true)
    (htake : takeOver (tableOf srv config server) (start server config process) = .ok m w₀)
    (hsrv : ServerWithin StaysTold srv (tableOf srv config server)) :
    (∀ x, Reaches srv (tableOf srv config server) (.setup w₀) x → x.hears = true →
      ∃ w, Reaches srv (tableOf srv config server) (.setup w₀) (.receiving w) ∧
        Listens srv (tableOf srv config server) w x ∧
        x.world.context.done = w.context.done ∧
        w.process.signals.Delivered x.world.process.signals ∧
        (srv.setup w₀ = .ok () w ∨
          (∀ y, Reaches srv (tableOf srv config server) (.setup w₀) y →
            Reaches srv (tableOf srv config server) y x → y.world.context.done = false) ∧
          Clear srv (tableOf srv config server) w₀ [] w)) ∧
    ∀ w', serve srv config (start server config process) = .ok .peerClosed w' →
      ∃ w, Reaches srv (tableOf srv config server) (.setup w₀) (.left (.ok .peerClosed w)) := by
  have hmanaged₀ : w₀.context.managed = true := by
    rw [(takeOver_ok htake).1]
    exact hmanaged
  refine ⟨fun x hx hhears => ?_, fun w' hserve => ?_⟩
  · obtain ⟨w, hreach, hopens, hlistens⟩ := (account_of_reaches hsrv hmanaged₀ hx).1 hhears
    obtain ⟨hdone, hdelivered⟩ := hlistens.heard
    refine ⟨w, hreach, hlistens, hdone, hdelivered, hopens.imp_right fun hagain => ?_⟩
    refine ⟨fun y _ hyx => ?_, hagain.2⟩
    cases htold : y.world.context.done with
    | false => rfl
    | true => cases ((hyx.staysTold hsrv).done htold).symm.trans (hdone.trans hagain.1)
  · obtain ⟨w, hrun⟩ := run_of_serve hmanaged htake hserve
    exact ⟨w, reaches_run_ok hrun⟩

end

/-! A server is sent a signal by its setup, and another one by the callback of the first. -/

theorem staysTold_raise (signal : Signal) : (Code.raise signal : Code σ Unit).Within StaysTold := by
  intro w
  rw [Code.after, Code.raise, Code.disturb]
  split
  all_goals
    next hrun =>
    split at hrun <;> cases hrun
    exact .of_context rfl

/-- The server. -/
def relay : Server Unit where
  name _ := "relay"
  handlers := .ofList [("go", fun _ => pure ())]
  bindSignals _ table :=
    (table.set .usr1 (.callback fun _ => Code.raise .usr2)).set .usr2 (.callback fun _ => pure ())
  setup := Code.raise .usr1

/-- Its process when it begins to serve: a message comes, and then the end of the stream. -/
def lastMessage : Process where
  coming := [.arrive ⟨[1, 0, 0, 0, 0, 8, 0, 1, 0, 0, 0, 2, 103, 111], [], false⟩, .finish]

/-- Its world once it has taken over the signals. -/
def relaying : World Unit := (takeOver (tableOf relay {} ())).after (start () {} lastMessage)

theorem relay_takes_over :
    takeOver (tableOf relay {} ()) (start () {} lastMessage) =
      .ok (SignalManager.install (tableOf relay {} ()).plan {}).1 relaying := by
  have htake : takeOver (tableOf relay {} ()) (start () {} lastMessage) = _ :=
    takeOver_of_quiet rfl rfl
  rw [relaying, Code.after_of_ok htake]
  exact htake

theorem relay_callback {signal : Signal} {run : Callback Unit}
    (h : (tableOf relay {} ()).callback? signal = some run) :
    (run = fun _ => Code.raise .usr2) ∨ run = fun _ => pure () := by
  cases signal <;> cases h
  · exact .inl rfl
  · exact .inr rfl

theorem relay_handler {name : String} {handler : Handler Unit}
    (h : relay.handlers.get? name = some handler) : handler = fun _ => pure () := by
  have hone : relay.handlers = Handlers.on {} "go" _ := rfl
  rw [hone, Handlers.get?_on] at h
  split at h <;> cases h
  rfl

/-- Whether some code finds the end of the stream, with one signal left to be called back for and
another one not. -/
def closesOwing (code : Code Unit LoopExit) (w : World Unit) (left called : Signal) : Bool :=
  match code w with
  | .ok .peerClosed w' => w'.process.signals.pending left && !w'.process.signals.pending called
  | _ => false

theorem requests_served_behind_a_callback :
    ∃ w w', Listens relay (tableOf relay {} ()) w (.left (.ok .peerClosed w')) ∧
      Clear relay (tableOf relay {} ()) relaying [] w ∧ w'.context.done = false ∧
      w'.process.signals.pending .usr2 = true := by
  have hsrv : ServerWithin StaysTold relay (tableOf relay {} ()) :=
    { setup := staysTold_raise _
      handlers := fun h args => by
        rw [relay_handler h]
        exact StaysTold.refl
      callbacks := fun h => by
        rcases relay_callback h with rfl | rfl
        · exact staysTold_raise _
        · exact StaysTold.refl
      finalize := StaysTold.refl }
  obtain ⟨hserved, -⟩ := requests_served rfl relay_takes_over hsrv
  have hrun : closesOwing (do relay.setup; run relay.handlers (tableOf relay {} ())) relaying
      .usr2 .usr1 = true := by decide +kernel
  have hsetup : (relay.setup.after relaying).process.signals.pending .usr1 = true := by
    decide +kernel
  unfold closesOwing at hrun
  split at hrun
  · next w' hend =>
    have hreach := reaches_run_ok hend
    rw [Bool.and_eq_true, Bool.not_eq_true'] at hrun
    obtain ⟨w, -, hlistens, hdone, hdelivered, hfirst | ⟨htold, hclear⟩⟩ := hserved _ hreach rfl
    · -- the mark of the setup has been taken up, so this is not the first call
      rw [Code.after_of_ok hfirst] at hsetup
      cases hrun.2.symm.trans (hdelivered.pending hsetup)
    · exact ⟨w, w', hlistens, hclear, htold _ hreach .refl, hrun.1⟩
  · cases hrun

/-! What the setup, or a callback, asks for is not served before the next read. -/

/-- A server whose setup tells the loop to quit. -/
def hasty : Server Unit where
  name _ := "hasty"
  setup := Code.quit

/-- **Requests are left unserved.** The loop of `relay` begins to read while the signal that its
setup was sent waits for its callback, and it ends at the end of the stream while the one that the
callback was sent waits for its own. The loop of `hasty` reads, and ends at the end of the stream,
although the setup has told it to quit. -/
theorem requests_unserved :
    (match (Stage.setup relaying).next relay (tableOf relay {} ()) with
      | .receiving w => w.process.signals.pending .usr1
      | _ => false) = true ∧
    ((tableOf relay {} ()).callback? .usr1).isSome = true ∧
    (match serve relay {} (start () {} lastMessage) with
      | .ok .peerClosed w => w.process.signals.pending .usr2
      | _ => false) = true ∧
    ((tableOf relay {} ()).callback? .usr2).isSome = true ∧
    (match serve hasty {} (start () {} { coming := [.finish] }) with
      | .ok .peerClosed w => w.context.done
      | _ => false) = true := by
  decide +kernel

end Loop

end Overseer
