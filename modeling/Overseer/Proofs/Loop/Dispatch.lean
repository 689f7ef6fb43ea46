import Overseer.Proofs.Channel.Schedule
import Overseer.Proofs.Loop.Run
import Overseer.Proofs.Process.Incoming
import Overseer.Proofs.Process.Writing

/-!
# What a loop does with a stream

A loop whose signals are not managed handles the messages of the stream that its peer writes one
after the other, until something stops it. `Loop.Runs` says that without buffers, reads and turns:
at each place of the stream the next frame decides whether a handler is called, in which world, and
how the loop goes on or ends (`Loop.Stops`). `Loop.run` does what it says (`Loop.runs_within`),
whatever is read at once, wherever reads are interrupted, and whatever is already buffered behind a
frame that stops the loop.

Handlers may do anything but take from the input (`Code.LeavesInput`): they may send signals to the
process, bind them anew and ask the process to quit, none of which has to do with a loop whose
signals are not managed.
-/

namespace Overseer

variable {σ : Type}

/-! ## Code that leaves the input alone -/

/-- The input of a loop is as it was before: nothing was read, and the same stream comes in. -/
structure World.Keeps (w w' : World σ) : Prop where
  channel_eq : w'.context.channel = w.context.channel
  managed_eq : w'.context.managed = w.context.managed
  unread : w.process.Unread w'.process

namespace Code

variable {α β : Type}

/-- Code that reads nothing, where the signals are not managed and the inbox is in order. -/
def LeavesInput (code : Code σ α) : Prop :=
  ∀ w a w', w.context.managed = false → w.process.Orderly → code w = .ok a w' → w.Keeps w'

/-- Code that changes neither the channel nor the process leaves the input alone. -/
theorem LeavesInput.of_own {code : Code σ α} (h : ∀ w a w', code w = .ok a w' →
    w'.context.channel = w.context.channel ∧ w'.context.managed = w.context.managed ∧
      w'.process = w.process) : LeavesInput code := by
  intro w a w' _ horderly hrun
  obtain ⟨hchannel, hmanaged, hprocess⟩ := h w a w' hrun
  refine ⟨hchannel, hmanaged, ?_⟩
  rw [hprocess]
  exact horderly.unread

theorem LeavesInput.pure (a : α) : LeavesInput (pure a : Code σ α) := by
  refine .of_own fun w a' w' h => ?_
  cases h
  exact ⟨rfl, rfl, rfl⟩

theorem LeavesInput.bind {code : Code σ α} {f : α → Code σ β} (h : LeavesInput code)
    (hf : ∀ a, LeavesInput (f a)) : LeavesInput (code >>= f) := by
  intro w b w'' hmanaged horderly hrun
  rw [bind_apply] at hrun
  split at hrun
  · next a w' hfirst =>
    have hkeeps := h w a w' hmanaged horderly hfirst
    have hkeeps' := hf a w' b w'' (hkeeps.managed_eq.trans hmanaged) hkeeps.unread.orderly hrun
    exact ⟨hkeeps'.channel_eq.trans hkeeps.channel_eq, hkeeps'.managed_eq.trans hkeeps.managed_eq,
      hkeeps.unread.trans hkeeps'.unread⟩
  · cases hrun

/-- So does code that gives up. -/
theorem LeavesInput.throw (halt : Halt) : LeavesInput (throw halt : Code σ α) := by
  intro w a w' _ _ h
  cases h

theorem LeavesInput.modifyServer (f : σ → σ) : LeavesInput (modifyServer f) := by
  refine .of_own fun w a w' h => ?_
  cases h
  exact ⟨rfl, rfl, rfl⟩

theorem LeavesInput.quit : LeavesInput (quit : Code σ Unit) := by
  refine .of_own fun w a w' h => ?_
  cases h
  exact ⟨rfl, rfl, rfl⟩

theorem LeavesInput.takeDescriptor :
    LeavesInput (takeDescriptor : Code σ (Option Descriptor)) := by
  refine .of_own fun w a w' h => ?_
  cases h
  exact ⟨rfl, rfl, rfl⟩

/-- Whatever is sent, nothing is read. -/
theorem LeavesInput.sending {send : Channel → Process → Except ChannelError Unit × Process}
    (h : ∀ c (p : Process), ∃ sent, (send c p).2 = p.withSent sent) :
    LeavesInput (sending send : Code σ Unit) := by
  intro w a w' _ horderly hrun
  unfold Code.sending at hrun
  obtain ⟨sent, hsent⟩ := h w.context.channel w.process
  split at hrun
  · next process hsend =>
    cases hrun
    rw [hsend] at hsent
    obtain rfl : process = w.process.withSent sent := hsent
    exact ⟨rfl, rfl, horderly.unread_of_eq rfl rfl horderly.apart⟩
  · cases hrun

/-- Writing a frame, or failing to encode it, adds at most to what was written. -/
theorem withSent_of_encode (r : Except ChannelError Octets) (d : Option Descriptor) (p : Process) :
    ∃ sent,
      (match r with
        | .error e => (.error e, p)
        | .ok xs => Channel.writeFrame Process.transport xs d p :
        Except ChannelError Unit × Process).2 = p.withSent sent := by
  cases r with
  | error e => exact ⟨p.sent, rfl⟩
  | ok xs =>
    exact Process.writes_withSent ((Channel.writes_iff Process.transport_lawful).2 rfl)

theorem LeavesInput.reply (m : Message) : LeavesInput (reply m : Code σ Unit) :=
  .sending fun c p => withSent_of_encode (Frame.encodeMessage m false c.limit) none p

theorem LeavesInput.replyWith (m : Message) (d : Descriptor) :
    LeavesInput (replyWith m d : Code σ Unit) :=
  .sending fun c p => withSent_of_encode (Frame.encodeMessage m true c.limit) (some d) p

theorem LeavesInput.sendScalar (data : Octets) : LeavesInput (sendScalar data : Code σ Unit) :=
  .sending fun c p => withSent_of_encode (Frame.encodeScalar data c.limit) none p

/-- Signals may act on the process, suspend it and let it go on. -/
theorem LeavesInput.disturb {f : Process → Process} (h : ∀ p : Process, p.SameInput (f p)) :
    LeavesInput (disturb f : Code σ Unit) := by
  intro w a w' _ horderly hrun
  have hunread := horderly.unread_of_sameInput (h w.process)
  have hresumed := hunread.trans hunread.orderly.unread_resume
  unfold Code.disturb at hrun
  simp only at hrun
  split at hrun
  · cases hrun
    exact ⟨rfl, rfl, hresumed⟩
  · cases hrun

theorem LeavesInput.raise (signal : Signal) : LeavesInput (raise signal : Code σ Unit) :=
  .disturb fun p => p.sameInput_deliver signal

theorem LeavesInput.preempt : LeavesInput (preempt : Code σ Unit) :=
  .disturb Process.sameInput_preempt

/-- A request to quit is none of the input's business. -/
theorem LeavesInput.requestQuit (signal : Signal) :
    LeavesInput (requestQuit signal : Code σ Unit) := by
  intro w a w' _ horderly hrun
  cases hrun
  exact ⟨rfl, rfl, horderly.unread_of_sameInput (w.process.sameInput_requestQuit signal)⟩

/-- Signals may be bound and marks taken up, as long as the end of the line is not registered. -/
theorem LeavesInput.modifySignals {f : SignalState → α × SignalState}
    (h : ∀ s fd, s.wakeup ≠ some fd → (f s).2.wakeup ≠ some fd) :
    LeavesInput (modifySignals f : Code σ α) := by
  intro w a w' _ horderly hrun
  cases hrun
  exact ⟨rfl, rfl, horderly.unread_of_eq rfl rfl (h _ _ horderly.apart)⟩

/-- Code may wait to be asked to quit. -/
theorem LeavesInput.spin : LeavesInput (spin : Code σ Unit) := by
  intro w a w' _ horderly hrun
  unfold Code.spin at hrun
  simp only at hrun
  split at hrun
  · cases hrun
    exact ⟨rfl, rfl, horderly.unread_awaitQuit⟩
  · cases hrun

end Code

namespace World

/-- From one world to the other nothing was done but to read: the server, the rest of the context
and what was written are the same. -/
structure Reads (w w' : World σ) : Prop where
  server_eq : w'.server = w.server
  context_eq : w'.context = { w.context with channel := w'.context.channel }
  limit_eq : w'.context.channel.limit = w.context.channel.limit
  sent_eq : w'.process.sent = w.process.sent

theorem Reads.trans {w w' w'' : World σ} (h : w.Reads w') (h' : w'.Reads w'') : w.Reads w'' := by
  refine ⟨h'.server_eq.trans h.server_eq, ?_, h'.limit_eq.trans h.limit_eq,
    h'.sent_eq.trans h.sent_eq⟩
  rw [h'.context_eq, h.context_eq]

/-- A call for the next frame does nothing but read. -/
theorem reads_of_fetches {w : World σ}
    {out : Reception (Frame × Option Descriptor) × Channel × Process}
    (h : Channel.Fetches Process.transport w.context.channel w.process out) :
    w.Reads (w.holding out.2.1 out.2.2) := by
  exact ⟨rfl, rfl, h.limit_eq, Process.sent_fetches h⟩

/-- The world in which a message is handled: its descriptor is there to be taken. -/
def given (w : World σ) (e : Envelope) : World σ :=
  { w with context := { w.context with descriptor := e.descriptor } }

end World

namespace Loop

/-! ## What a loop is to do -/

section
variable (handlers : Handlers (Handler σ)) (limit : Nat) (s : Stream)

/-- The next frame of the stream is a message. -/
def Meets (place : Stream.Place) (e : Envelope) (place' : Stream.Place) : Prop :=
  ∃ flagged, s.Next limit place (.message e.message flagged) e.descriptor place'

/-- How the loop ends at a place, with the messages that are handled there, one at most. -/
inductive Stops (place : Stream.Place) (w : World σ) :
    List Envelope → EStateM.Result Halt (World σ) LoopExit → Prop
  /-- The next frame is no message. -/
  | unexpected {data : Octets} {flagged : Bool} {d : Option Descriptor} {place' : Stream.Place}
      {w' : World σ} (hnext : s.Next limit place (.scalar data flagged) d place')
      (hreads : w.Reads w') :
      Stops place w [] (.error (.failed (.channel (.unexpected "message" "scalar"))) w')
  /-- Its name has no handler. -/
  | unknown {e : Envelope} {place' : Stream.Place} {w' : World σ}
      (hmeets : Meets limit s place e place') (hreads : w.Reads w')
      (hget : handlers.get? e.message.name = none) :
      Stops place w [] (.error (.failed (.unknownMessage e.message.name)) (w'.given e))
  /-- Its handler fails, whether it asked for the end of the loop or not. -/
  | fails {e : Envelope} {place' : Stream.Place} {w' w'' : World σ} {handler : Handler σ}
      {halt : Halt} (hmeets : Meets limit s place e place') (hreads : w.Reads w')
      (hget : handlers.get? e.message.name = some handler)
      (hrun : handler e.message.args (w'.given e) = .error halt w'') :
      Stops place w [e] (.error halt w'')
  /-- Its handler asked for the end of the loop. -/
  | quits {e : Envelope} {place' : Stream.Place} {w' w'' : World σ} {handler : Handler σ}
      (hmeets : Meets limit s place e place') (hreads : w.Reads w')
      (hget : handlers.get? e.message.name = some handler)
      (hrun : handler e.message.args (w'.given e) = .ok () w'')
      (hdone : w''.context.done = true) : Stops place w [e] (.ok .quit w'')
  /-- The stream has ended behind a frame. -/
  | closed {w' : World σ} (hlacks : s.Lacks limit place .ended) (hreads : w.Reads w') :
      Stops place w [] (.ok .peerClosed w')
  /-- There is no next frame, for another reason: it is malformed, cut short, or without the
  descriptor that belongs to it. -/
  | failed {e : ChannelError} {w' : World σ} (hlacks : s.Lacks limit place (.failed e))
      (hreads : w.Reads w') : Stops place w [] (.error (.failed (.channel e)) w')
  /-- Before there was a whole frame, descriptors came for which there is no room. -/
  | lost {front back : Stream} {w' : World σ} (hs : s = front ++ back)
      (hdec : Frame.decode limit (front.octetsFrom place) = .ok none)
      (hlost : Process.Overladen back) (hreads : w.Reads w') :
      Stops place w [] (.error (.failed (.channel (.io .descriptorsLost))) w')
  /-- Before there was a whole frame the process was ended or suspended for good, or all was written
  that is written, and the stream has not ended. -/
  | waits {front back : Stream} {w' : World σ} (hs : s = front ++ back)
      (hdec : Frame.decode limit (front.octetsFrom place) = .ok none)
      (hidles : w'.process.Idles back) (hreads : w.Reads w') :
      Stops place w [] (.error (Code.haltOf w'.process) w')

/-- What the loop does from a place on, with the messages that are handled, in order: each is
handled in the world that the one before has left, but for what was read in between. -/
inductive Runs : Stream.Place → World σ → List Envelope →
    EStateM.Result Halt (World σ) LoopExit → Prop
  | stops {place : Stream.Place} {w : World σ} {es : List Envelope}
      {result : EStateM.Result Halt (World σ) LoopExit}
      (h : Stops handlers limit s place w es result) : Runs place w es result
  | handles {e : Envelope} {place place' : Stream.Place} {w w' w'' : World σ} {handler : Handler σ}
      {es : List Envelope} {result : EStateM.Result Halt (World σ) LoopExit}
      (hmeets : Meets limit s place e place') (hreads : w.Reads w')
      (hget : handlers.get? e.message.name = some handler)
      (hrun : handler e.message.args (w'.given e) = .ok () w'')
      (hgo : w''.context.done = false) (hrest : Runs place' w'' es result) :
      Runs place w (e :: es) result

/-- What a loop is about to receive from: it stands at a place of the stream that comes in, its
signals are not managed, and it was not told to quit. -/
structure Ready (place : Stream.Place) (w : World σ) : Prop where
  managed : w.context.managed = false
  done : w.context.done = false
  limit_eq : w.context.channel.limit = limit
  orderly : w.process.Orderly
  stands : Channel.Stands Process.account s place w.context.channel w.process

end

variable {handlers : Handlers (Handler σ)} {table : SignalTable (Callback σ)} {limit : Nat}
  {s : Stream} {place place' : Stream.Place} {w w' : World σ}
  {es : List Envelope} {result : EStateM.Result Halt (World σ) LoopExit}

/-- What is read before the loop does anything plays no part. -/
theorem Stops.of_reads (hreads : w.Reads w')
    (h : Stops handlers limit s place w' es result) :
    Stops handlers limit s place w es result := by
  cases h with
  | unexpected hnext h => exact .unexpected hnext (hreads.trans h)
  | unknown hmeets h hget => exact .unknown hmeets (hreads.trans h) hget
  | fails hmeets h hget hrun => exact .fails hmeets (hreads.trans h) hget hrun
  | quits hmeets h hget hrun hdone => exact .quits hmeets (hreads.trans h) hget hrun hdone
  | closed hlacks h => exact .closed hlacks (hreads.trans h)
  | failed hlacks h => exact .failed hlacks (hreads.trans h)
  | lost hs hdec hlost h => exact .lost hs hdec hlost (hreads.trans h)
  | waits hs hdec hidles h => exact .waits hs hdec hidles (hreads.trans h)

theorem Runs.of_reads (hreads : w.Reads w')
    (h : Runs handlers limit s place w' es result) :
    Runs handlers limit s place w es result := by
  cases h with
  | stops h => exact .stops (h.of_reads hreads)
  | handles hmeets h hget hrun hgo hrest =>
    exact .handles hmeets (hreads.trans h) hget hrun hgo hrest

/-! ## What the loop does -/

/-- A message is handled with its descriptor at hand, if there is a handler of its name. -/
theorem dispatch_apply (e : Envelope) (w : World σ) :
    dispatch handlers e w =
      match handlers.get? e.message.name with
      | none => .error (.failed (.unknownMessage e.message.name)) (w.given e)
      | some handler => handler e.message.args (w.given e) := by
  unfold dispatch
  rw [Code.bind_apply]
  show (match handlers.get? e.message.name with
    | none => Code.fail (.unknownMessage e.message.name)
    | some handler => handler e.message.args : Code σ Unit) (w.given e) = _
  cases handlers.get? e.message.name <;> rfl

/-- Where the signals are not managed the end of a turn only looks whether the loop was told to
quit. -/
theorem lookAround_apply (h : w.context.managed = false) :
    (runDeferred table >>= fun _ => checkQuit) w =
      .ok (if w.context.done then some .quit else none) w := by
  unfold runDeferred
  rw [bind_assoc, Code.get_bind, if_neg (by rw [h]; nofun)]
  exact checkQuit_of_none fun hmanaged => by rw [h] at hmanaged; cases hmanaged

theorem pendingQuit_of_unmanaged (h : w.context.managed = false) :
    pendingQuit w = .ok none w := by
  rw [pendingQuit_apply, if_neg (by rw [h]; nofun)]

/-- A failed call ends the loop, unless it was merely interrupted. -/
theorem afterReceiving_failed {e : ChannelError} (he : e ≠ .interrupted)
    (h : w.context.managed = false) :
    afterReceiving handlers table (.failed e) w = .error (.failed (.channel e)) w := by
  rw [afterReceiving, Code.bind_apply, pendingQuit_of_unmanaged h]
  · rfl
  · exact he

/-- The stream is no reason for an interruption. -/
theorem ne_interrupted_of_lacks {e : ChannelError}
    (h : s.Lacks limit place (.failed e)) : e ≠ .interrupted := by
  cases h with
  | malformed hdec =>
    obtain ⟨_, _, rfl⟩ | ⟨_, rfl⟩ := Frame.cause_of_decode hdec
    · nofun
    · nofun
  | missing | cutShort => nofun

/-- What a turn does: it ends the loop, it handles a message, or it was merely interrupted. A turn
that is followed by another one has used up some of the input. -/
inductive Turn (handlers : Handlers (Handler σ)) (limit : Nat) (s : Stream)
    (place : Stream.Place) (w : World σ) :
    EStateM.Result Halt (World σ) (Option LoopExit) → Prop
  | leaves {es : List Envelope} {exit : LoopExit} {w' : World σ}
      (h : Stops handlers limit s place w es (.ok exit w')) :
      Turn handlers limit s place w (.ok (some exit) w')
  | halts {es : List Envelope} {halt : Halt} {w' : World σ}
      (h : Stops handlers limit s place w es (.error halt w')) :
      Turn handlers limit s place w (.error halt w')
  | handles {e : Envelope} {place' : Stream.Place} {w' w'' : World σ} {handler : Handler σ}
      (hmeets : Meets limit s place e place') (hreads : w.Reads w')
      (hget : handlers.get? e.message.name = some handler)
      (hrun : handler e.message.args (w'.given e) = .ok () w'')
      (hw : Ready limit s place' w'') (hlt : w''.pendingInput < w.pendingInput) :
      Turn handlers limit s place w (.ok none w'')
  | interrupted {w' : World σ} (hreads : w.Reads w') (hw : Ready limit s place w')
      (hlt : w'.pendingInput < w.pendingInput) :
      Turn handlers limit s place w (.ok none w')

/-- A message that was received is handled, and a turn is over. -/
theorem turn_of_message (hhandlers : ∀ name handler, handlers.get? name = some handler →
      ∀ args, Code.LeavesInput (handler args)) {e : Envelope}
    (hmeets : Meets limit s place e place') (hreads : w.Reads w') (hw : Ready limit s place' w')
    (hlt : w'.pendingInput < w.pendingInput) :
    Turn handlers limit s place w (afterReceiving handlers table (.item e) w') := by
  rw [afterReceiving, Code.bind_apply, dispatch_apply]
  cases hget : handlers.get? e.message.name with
  | none => exact .halts (.unknown hmeets hreads hget)
  | some handler =>
    simp only
    cases hrun : handler e.message.args (w'.given e) with
    | error halt w'' => exact .halts (.fails hmeets hreads hget hrun)
    | ok _ w'' =>
      have hkeeps : (w'.given e).Keeps w'' :=
        hhandlers _ handler hget _ _ _ _ hw.managed hw.orderly hrun
      have hmanaged : w''.context.managed = false := hkeeps.managed_eq.trans hw.managed
      simp only [lookAround_apply hmanaged]
      cases hdone : w''.context.done with
      | true => exact .leaves (.quits hmeets hreads hget hrun hdone)
      | false =>
        -- the handler has left the input alone, so the loop stands where it stood before
        have hchannel : w''.context.channel = w'.context.channel := hkeeps.channel_eq
        refine .handles hmeets hreads hget hrun
          ⟨hmanaged, hdone, ?_, hkeeps.unread.orderly, ?_⟩ ?_
        · rw [hchannel, hw.limit_eq]
        · rw [hchannel]
          exact hw.stands.of_comes fun hcomes =>
            ⟨hkeeps.unread.orderly, hkeeps.unread.incoming_eq.trans hcomes.2⟩
        · refine Nat.lt_of_le_of_lt ?_ hlt
          rw [World.pendingInput, World.pendingInput, hchannel]
          exact Nat.add_le_add_left hkeeps.unread.inflow_le _

/-- **What a turn of a loop does.** -/
theorem turn_of_ready (hhandlers : ∀ name handler, handlers.get? name = some handler →
      ∀ args, Code.LeavesInput (handler args)) (hw : Ready limit s place w) :
    Turn handlers limit s place w (pass handlers table w) := by
  generalize hout : Channel.nextFrame Process.transport w.context.channel w.process = out
  obtain ⟨r, channel, process⟩ := out
  have hfetch := (Channel.fetches_iff Process.transport_lawful).2 hout
  have hreads : w.Reads (w.holding channel process) := World.reads_of_fetches hfetch
  have hmanaged : (w.holding channel process).context.managed = false := hw.managed
  obtain ⟨notes, hcourse⟩ := Process.Course.fetches hfetch
  have hready {place' : Stream.Place}
      (hs : Channel.Stands Process.account s place' channel process) :
      Ready limit s place' (w.holding channel process) :=
    ⟨hw.managed, hw.done, hreads.limit_eq.trans hw.limit_eq, hcourse.orderly hw.orderly, hs⟩
  -- the place tells what the call comes to, whatever was buffered and read for it
  have htells := hfetch.tells hw.stands
  rw [hw.limit_eq] at htells
  rw [pass_eq, Code.bind_apply, Code.receive_apply hout]
  cases htells with
  | interrupted hs =>
    have hlt := hfetch.pending.2 (.inr rfl)
    show Turn _ _ _ _ _ ((runDeferred table >>= fun _ => checkQuit) (w.holding channel process))
    rw [lookAround_apply hmanaged, if_neg (by rw [(hready hs).done]; nofun)]
    exact .interrupted hreads (hready hs) hlt
  | lacks hlacks =>
    cases r with
    | item => cases hlacks
    | ended =>
      show Turn _ _ _ _ _ ((pendingQuit >>= fun request =>
        pure (some (request.elim .peerClosed .signalled))) (w.holding channel process))
      rw [Code.bind_apply, pendingQuit_of_unmanaged hmanaged]
      exact .leaves (.closed hlacks hreads)
    | failed e =>
      show Turn _ _ _ _ _ (afterReceiving handlers table (.failed e) (w.holding channel process))
      rw [afterReceiving_failed (ne_interrupted_of_lacks hlacks) hmanaged]
      exact .halts (.failed hlacks hreads)
    | waiting => cases hlacks
  | broken hs hdec hfails =>
    obtain ⟨rfl, hlost⟩ := hfails
    show Turn _ _ _ _ _ (afterReceiving handlers table (.failed (.io .descriptorsLost))
      (w.holding channel process))
    have hother : ChannelError.io .descriptorsLost ≠ .interrupted := nofun
    rw [afterReceiving_failed hother hmanaged]
    exact .halts (.lost hs hdec hlost hreads)
  | @dry _ back _ _ hs hdec hidles =>
    have hidles : (w.holding channel process).process.Idles back := hidles
    exact .halts (.waits hs hdec hidles hreads)
  | @next frame d place' _ _ hnext hs =>
    cases frame with
    | message m flagged =>
      have hlt := hfetch.pending.2 (.inl ⟨_, rfl⟩)
      exact turn_of_message hhandlers (e := ⟨m, d⟩) ⟨flagged, hnext⟩ hreads (hready hs) hlt
    | scalar data flagged =>
      show Turn _ _ _ _ _ (afterReceiving handlers table
        (.failed (.unexpected "message" "scalar")) (w.holding channel process))
      have hother : ChannelError.unexpected "message" "scalar" ≠ .interrupted := nofun
      rw [afterReceiving_failed hother hmanaged]
      exact .halts (.unexpected hnext hreads)

/-- **Turns enough for the input do what the loop is to do.** -/
theorem runs_within (hhandlers : ∀ name handler, handlers.get? name = some handler →
      ∀ args, Code.LeavesInput (handler args)) {turns : Nat}
    (hw : Ready limit s place w) (hinput : w.pendingInput < turns) :
    ∃ es, Runs handlers limit s place w es (within handlers table turns w) := by
  -- a turn that is followed by another one leaves less input, so the turns do not run out
  induction turns generalizing place w with
  | zero => omega
  | succ turns ih =>
    have hturn : Turn handlers limit s place w (pass handlers table w) :=
      turn_of_ready hhandlers hw
    rw [within, Code.bind_apply]
    generalize pass handlers table w = r at hturn
    cases hturn with
    | leaves h => exact ⟨_, .stops h⟩
    | halts h => exact ⟨_, .stops h⟩
    | handles hmeets hreads hget hrun hw' hlt =>
      obtain ⟨es, hruns⟩ := ih hw' (by omega)
      exact ⟨_, .handles hmeets hreads hget hrun hw'.done hruns⟩
    | interrupted hreads hw' hlt =>
      obtain ⟨es, hruns⟩ := ih hw' (by omega)
      exact ⟨es, hruns.of_reads hreads⟩

/-- The messages that are handled are the first frames from a place on. -/
theorem Runs.leads (h : Runs handlers limit s place w es result) :
    ∃ rest, Frame.Leads limit (s.octetsFrom place)
      (es.map fun e => .message e.message e.descriptor.isSome) rest := by
  have hmessage {e : Envelope} {place place' : Stream.Place} (h : Meets limit s place e place') :
      Frame.decode limit (s.octetsFrom place) =
        .ok (some (.message e.message e.descriptor.isSome, s.octetsFrom place')) := by
    obtain ⟨flagged, hnext⟩ := h
    generalize hd : e.descriptor = d at hnext ⊢
    cases hnext with
    | plain hn hdec hf =>
      obtain rfl : flagged = false := hf
      exact hdec
    | flagged hn hdec hf hd' =>
      obtain rfl : flagged = true := hf
      exact hdec
  induction h with
  | stops h =>
    cases h with
    | unexpected | unknown | closed | failed | lost | waits => exact ⟨_, .nil _⟩
    | fails hmeets | quits hmeets => exact ⟨_, .cons (hmessage hmeets) (.nil _)⟩
  | handles hmeets _ _ _ _ _ ih =>
    obtain ⟨rest, hleads⟩ := ih
    exact ⟨rest, .cons (hmessage hmeets) hleads⟩

/-- **A loop handles the messages of a stream in order**, and ends as the first frame has it that
stops it. The stream is what the peer writes until it finishes or leaves. The handlers that are
called are those of the first frames, each called once, with the arguments of its message, in the
world that the one before has left, but for what was read in between. The loop ends at the first
frame that is no message, or whose name has no handler, or whose handler fails, or whose handler
told the loop to quit; if there is no such frame it ends with the stream. No handler runs after
that. How the stream is cut into reads, which of them are interrupted, and what handlers do with the
signals of the process plays no part, unless a signal ends the process or suspends it for good. -/
theorem dispatch_in_order (table : SignalTable (Callback σ))
    (hhandlers : ∀ name handler, handlers.get? name = some handler →
      ∀ args, Code.LeavesInput (handler args))
    (hmanaged : w.context.managed = false) (hdone : w.context.done = false)
    (horderly : w.process.Orderly)
    (hstands : Channel.Stands Process.account s place w.context.channel w.process) :
    ∃ es, Runs handlers w.context.channel.limit s place w es (run handlers table w) ∧
      ∃ rest, Frame.Leads w.context.channel.limit (s.octetsFrom place)
        (es.map fun e => .message e.message e.descriptor.isSome) rest := by
  have hready : Ready w.context.channel.limit s place w :=
    ⟨hmanaged, hdone, rfl, horderly, hstands⟩
  have hruns : ∃ es, Runs handlers w.context.channel.limit s place w es
      (run handlers table w) := runs_within hhandlers hready (Nat.lt_succ_self _)
  obtain ⟨es, hruns⟩ := hruns
  exact ⟨es, hruns, hruns.leads⟩

/-! A server counts arguments until it gets a message that it does not know. Its handler asks the
process to quit, binds a signal and sends it, and forgets the request. Another signal cuts in
between two parts of the first frame. -/

/-- The server's only handler. -/
def counter : Handlers (Handler Nat) :=
  .ofList [("add", fun args => do
    Code.modifyServer (· + args.length)
    Code.requestQuit .term
    Code.modifySignals fun s => ((), s.bind .usr2 .deferred)
    Code.raise .usr2
    let _ ← Code.takeQuit
    Code.reply ⟨"ok", args⟩)]

/-- What comes before the signal. -/
def beforeSignal : Octets := [1, 0, 0, 0, 0, 14, 0, 2, 0]

/-- What comes behind it: the rest of a frame, and a frame with another name. -/
def behindSignal : Octets :=
  [0, 0, 3, 97, 100, 100, 0, 0, 0, 1, 7, 1, 0, 0, 0, 0, 10, 0, 1, 0, 0, 0, 4, 110, 111, 112, 101]

/-- The server's world when its loop begins. -/
def counting : World Nat where
  server := 0
  context := {}
  process := {
    signals := { dispositions := fun signal => if signal = .usr2 then .default else .deferred }
    coming := [.arrive ⟨beforeSignal, [], false⟩, .signal .usr1,
      .arrive ⟨behindSignal, [], false⟩, .finish] }

/-- How the server fails, and what it has counted. -/
def failure : EStateM.Result Halt (World Nat) LoopExit → Option (Halt × Nat)
  | .ok .. => none
  | .error halt w => some (halt, w.server)

theorem dispatch_in_order_interrupted :
    counting.process.incoming =
        Stream.tagged beforeSignal none ++ Stream.tagged behindSignal none ∧
      (∃ es, Runs counter counting.context.channel.limit counting.process.incoming {} counting es
        (run counter {} counting)) ∧
      failure (run counter {} counting) = some (.failed (.unknownMessage "nope"), 1) := by
  have hhandlers : ∀ name handler, counter.get? name = some handler →
      ∀ args, Code.LeavesInput (handler args) := by
    intro name handler h args
    have hone : counter = Handlers.on {} "add" _ := rfl
    rw [hone, Handlers.get?_on] at h
    split at h
    · cases h
      have hbind : Code.LeavesInput (σ := Nat)
          (Code.modifySignals fun s => ((), s.bind .usr2 .deferred)) :=
        .modifySignals fun _ _ h => h
      have htake : Code.LeavesInput (σ := Nat) Code.takeQuit := .modifySignals fun _ _ h => h
      exact .bind (.modifyServer _) fun _ => .bind (.requestQuit _) fun _ => .bind hbind fun _ =>
        .bind (.raise _) fun _ => .bind htake fun _ => .reply _
    · cases h
  have horderly : counting.process.Orderly := by
    refine ⟨fun _ hs => ?_, by decide, by decide⟩
    cases hs
  have hstands : Channel.Stands Process.account counting.process.incoming {}
      counting.context.channel counting.process := Channel.stands_fresh ⟨horderly, rfl⟩
  obtain ⟨es, hruns, -⟩ := dispatch_in_order {} hhandlers rfl rfl horderly hstands
  exact ⟨by decide +kernel, ⟨es, hruns⟩, by decide +kernel⟩

end Loop

end Overseer
