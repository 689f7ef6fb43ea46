import Overseer.Proofs.Loop.Stage

/-!
# The run of a loop

`Loop.run` is a recursion over turns, and a turn receives before it does anything else. Here the run
is taken apart into the stages that it goes through: a call for the next frame
(`reaches_of_fetches`), a turn (`turns_pass`) and the loop behind the setup (`reaches_run`). Each
turn but the last has used up some of the input, so the turns that `Loop.run` allows for lead to the
end.
-/

namespace Overseer.Loop

variable {σ : Type} {srv : Server σ} {table : SignalTable (Callback σ)} {x y : Stage σ}

/-! ## Receiving -/

/-- **A call for the next frame shows in the stages.** -/
theorem reaches_of_fetches {w : World σ} {c : Channel} {p : Process}
    {out : Reception (Frame × Option Descriptor) × Channel × Process}
    (h : Channel.Fetches Process.transport c p out) :
    Reaches srv table (.receiving (w.holding c p))
      (.received out.1.toEnvelope (w.holding out.2.1 out.2.2)) := by
  have hreading : ∀ {c : Channel} {p : Process}, c.settled? = none →
      Reaches srv table (.receiving (w.holding c p)) (.reading (w.holding c p.preempt)) :=
    fun h => (Leads.unanswered h).reaches.trans (Leads.preempted _).reaches
  have hreadOn : ∀ {p p' : Process} {r : Option Reading},
      Process.transport.read p Channel.chunkSize = (r, p') →
        p.preempt.readOn Channel.chunkSize = (r, p') := fun h => h
  induction h with
  | settled h => exact (Leads.answered h).reaches
  | dry h hread => exact (hreading h).trans (Leads.dry (hreadOn hread)).reaches
  | broken h hread habsorb =>
    exact (hreading h).trans (Leads.broken (hreadOn hread) habsorb).reaches
  | onward h hread habsorb _ ih =>
    exact ((hreading h).trans (Leads.onward (hreadOn hread) habsorb).reaches).trans ih

/-! ## A turn of the loop -/

/-- How the outcome of a turn shows in the stages: the next turn begins with less input, or the loop
ends. -/
inductive Turns (srv : Server σ) (table : SignalTable (Callback σ)) (x : Stage σ) (input : Nat) :
    EStateM.Result Halt (World σ) (Option LoopExit) → Prop
  | again {w : World σ} (h : Reaches srv table x (.receiving w)) (hlt : w.pendingInput < input) :
      Turns srv table x input (.ok none w)
  | stops {exit : LoopExit} {w : World σ} (h : Reaches srv table x (.left (.ok exit w))) :
      Turns srv table x input (.ok (some exit) w)
  | halts {halt : Halt} {w : World σ} (h : Reaches srv table x (.left (.error halt w))) :
      Turns srv table x input (.error halt w)

variable {input : Nat} {w : World σ}

theorem Turns.of_reaches {r : EStateM.Result Halt (World σ) (Option LoopExit)}
    (h : Turns srv table y input r) (hx : Reaches srv table x y) : Turns srv table x input r := by
  cases h with
  | again h hlt => exact .again (hx.trans h) hlt
  | stops h => exact .stops (hx.trans h)
  | halts h => exact .halts (hx.trans h)

/-- The last look of a turn. -/
theorem turns_checking (hlt : w.pendingInput < input) :
    Turns srv table (.checking w) input (checkQuit w) := by
  obtain ⟨exit, w', h⟩ := checkQuit_ok w
  rw [h]
  cases exit with
  | none =>
    obtain rfl := (checkQuit_none h).1
    exact .again (Leads.again h).reaches hlt
  | some exit => exact .stops (Leads.stops h).reaches

/-- The callbacks of a turn, and the look that follows. -/
theorem turns_calling {signals : List Signal} (h : Loyally srv table (.calling signals w))
    (hlt : w.pendingInput < input) :
    Turns srv table (.calling signals w) input
      ((signals.forM (callBack table) >>= fun _ => checkQuit) w) := by
  induction signals generalizing w with
  | nil => exact (turns_checking hlt).of_reaches (Leads.looks w).reaches
  | cons signal signals ih =>
    rw [show (signal :: signals).forM (callBack table) =
      (callBack table signal >>= fun _ => signals.forM (callBack table)) from rfl, bind_assoc,
      Code.bind_apply]
    cases hcall : callBack table signal w with
    | error halt w' => exact .halts (Leads.callingHalts hcall).reaches
    | ok a w' =>
      obtain ⟨notes, hgo⟩ := h _ .refl w' hcall
      have hreach : Reaches srv table (.calling (signal :: signals) w) _ :=
        (Leads.called hcall).reaches
      exact (ih (h.of_reaches hreach) (Nat.lt_of_le_of_lt hgo.pending_le hlt)).of_reaches hreach

/-- The end of a turn, behind a message or an interrupted read. -/
theorem turns_deferring (h : Loyally srv table (.deferring w)) (hlt : w.pendingInput < input) :
    Turns srv table (.deferring w) input ((runDeferred table >>= fun _ => checkQuit) w) := by
  unfold runDeferred
  rw [bind_assoc, Code.get_bind]
  cases hmanaged : w.context.managed with
  | true =>
    have hreach : Reaches srv table (.deferring w) _ := (Leads.collected hmanaged).reaches
    rw [if_pos rfl, bind_assoc, Code.bind_apply, Code.takePending_apply]
    exact (turns_calling (h.of_reaches hreach) hlt).of_reaches hreach
  | false =>
    have hreach : Reaches srv table (.deferring w) _ := (Leads.unmanaged hmanaged).reaches
    exact (turns_calling (h.of_reaches hreach) hlt).of_reaches hreach

/-- A message is handled, and the rest of the turn follows. -/
theorem turns_handling {e : Envelope} (h : Loyally srv table (.handling e w))
    (hlt : w.pendingInput < input) :
    Turns srv table (.handling e w) input
      ((dispatch srv.handlers e >>= fun _ => runDeferred table >>= fun _ => checkQuit) w) := by
  rw [Code.bind_apply]
  cases hrun : dispatch srv.handlers e w with
  | error halt w' => exact .halts (Leads.handlingHalts hrun).reaches
  | ok a w' =>
    obtain ⟨notes, hgo⟩ := h _ .refl w' hrun
    have hreach : Reaches srv table (.handling e w) _ := (Leads.handled hrun).reaches
    have hlt' := Nat.lt_of_le_of_lt hgo.pending_le hlt
    exact (turns_deferring (h.of_reaches hreach) hlt').of_reaches hreach

/-- What is left of a turn when receiving has come to an end. -/
def afterReceiving (handlers : Handlers (Handler σ)) (table : SignalTable (Callback σ))
    (r : Reception Envelope) : Code σ (Option LoopExit) :=
  match r with
  | .item e => dispatch handlers e >>= fun _ => runDeferred table >>= fun _ => checkQuit
  | .ended => pendingQuit >>= fun request => pure (some (request.elim .peerClosed .signalled))
  | .failed .interrupted => runDeferred table >>= fun _ => checkQuit
  | .failed e => pendingQuit >>= fun request =>
    match request with
    | some signal => pure (some (.signalled signal))
    | none => Code.fail (.channel e)
  | .waiting => throw .waiting

/-- A failed call ends the loop as a request to quit says, or as a failure. -/
theorem afterReceiving_of_failed {handlers : Handlers (Handler σ)} {e : ChannelError}
    (he : e ≠ .interrupted) :
    afterReceiving handlers table (.failed e) = pendingQuit >>= fun request =>
      match request with
      | some signal => pure (some (.signalled signal))
      | none => Code.fail (.channel e) := by
  cases e <;> first | rfl | exact absurd rfl he

theorem pass_eq (handlers : Handlers (Handler σ)) (table : SignalTable (Callback σ)) :
    pass handlers table = Code.receive >>= afterReceiving handlers table := by
  unfold pass attend
  rw [bind_assoc]
  congr 1
  funext r
  cases r with
  | item e => rw [bind_assoc]; rfl
  | ended => rw [bind_assoc]; rfl
  | failed e =>
    cases e with
    | interrupted => rfl
    | _ =>
      simp only [afterReceiving]
      rw [bind_assoc]
      congr 1
      funext request
      cases request <;> rfl
  | waiting => rfl

/-- A call for a message uses up what it brings, and an interruption too. -/
theorem pendingInput_of_fetches {r : Reception (Frame × Option Descriptor)} {channel : Channel}
    {process : Process}
    (h : Channel.Fetches Process.transport w.context.channel w.process (r, channel, process))
    (hr : (∃ e, r.toEnvelope = .item e) ∨ r.toEnvelope = .failed .interrupted) :
    (w.holding channel process).pendingInput < w.pendingInput := by
  refine h.pending.2 ?_
  cases r with
  | item value => exact .inl ⟨value, rfl⟩
  | failed e =>
    rcases hr with ⟨e', he⟩ | he
    · cases he
    · cases he
      exact .inr rfl
  | ended | waiting => rcases hr with ⟨e', he⟩ | he <;> cases he

/-- What was received decides how the turn goes on. -/
theorem turns_received {r : Reception Envelope} (h : Loyally srv table (.received r w))
    (hr : r ≠ .waiting)
    (hlt : (∃ e, r = .item e) ∨ r = .failed .interrupted → w.pendingInput < input) :
    Turns srv table (.received r w) input (afterReceiving srv.handlers table r w) := by
  cases r with
  | item e =>
    have hreach : Reaches srv table (.received (.item e) w) _ := (Leads.item e w).reaches
    exact (turns_handling (h.of_reaches hreach) (hlt (.inl ⟨e, rfl⟩))).of_reaches hreach
  | ended =>
    obtain ⟨request, w', hlook⟩ := pendingQuit_ok w
    simp only [afterReceiving]
    rw [Code.bind_apply, hlook]
    exact .stops (Leads.closed hlook).reaches
  | failed e =>
    by_cases he : e = .interrupted
    · subst he
      have hreach : Reaches srv table (.received (.failed .interrupted) w) _ :=
        (Leads.interrupted w).reaches
      exact (turns_deferring (h.of_reaches hreach) (hlt (.inr rfl))).of_reaches hreach
    · obtain ⟨request, w', hlook⟩ := pendingQuit_ok w
      rw [afterReceiving_of_failed he, Code.bind_apply, hlook]
      cases request with
      | none => exact .halts (Leads.failed he hlook).reaches
      | some signal => exact .stops (Leads.excused he hlook).reaches
  | waiting => exact absurd rfl hr

/-- **A turn of the loop shows in the stages.** -/
theorem turns_pass (h : Loyally srv table (.receiving w)) :
    Turns srv table (.receiving w) w.pendingInput (pass srv.handlers table w) := by
  generalize hout : Channel.nextFrame Process.transport w.context.channel w.process = out
  obtain ⟨r, channel, process⟩ := out
  have hfetch := (Channel.fetches_iff Process.transport_lawful).2 hout
  have hreach : Reaches srv table (.receiving w)
      (.received r.toEnvelope (w.holding channel process)) := reaches_of_fetches hfetch
  have hlt := pendingInput_of_fetches hfetch
  rw [pass_eq, Code.bind_apply, Code.receive_apply hout]
  generalize r.toEnvelope = received at hreach hlt
  by_cases hr : received = .waiting
  · subst hr
    exact .halts hreach.next
  · have hturn := (turns_received (h.of_reaches hreach) hr hlt).of_reaches hreach
    cases received with
    | waiting => exact absurd rfl hr
    | item | ended | failed => exact hturn

/-! ## The loop -/

/-- Turns enough for the input lead to the end. -/
theorem reaches_within {turns : Nat} (h : Loyally srv table (.receiving w))
    (hinput : w.pendingInput < turns) :
    Reaches srv table (.receiving w) (.left (within srv.handlers table turns w)) := by
  induction turns generalizing w with
  | zero => omega
  | succ turns ih =>
    have hpass := turns_pass h
    rw [within, Code.bind_apply]
    generalize pass srv.handlers table w = r at hpass
    cases hpass with
    | again hreach hlt => exact hreach.trans (ih (h.of_reaches hreach) (by omega))
    | stops hreach => exact hreach
    | halts hreach => exact hreach

/-- **The stages lead to what the setup and the loop come to.** -/
theorem reaches_run (h : Loyally srv table (.setup w)) :
    Reaches srv table (.setup w)
      (.left ((do srv.setup; run srv.handlers table : Code σ LoopExit) w)) := by
  rw [Code.bind_apply]
  cases hsetup : srv.setup w with
  | error halt w' => exact (Leads.setupHalts hsetup).reaches
  | ok a w' =>
    have hreach : Reaches srv table (.setup w) _ := (Leads.prepared hsetup).reaches
    exact hreach.trans (reaches_within (h.of_reaches hreach) (Nat.lt_succ_self _))

end Overseer.Loop
