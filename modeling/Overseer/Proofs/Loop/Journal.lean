import Overseer.Proofs.Channel.Exactness
import Overseer.Proofs.Loop.Contract
import Overseer.Proofs.Loop.Dispatch
import Overseer.Proofs.Loop.TakeOver
import Overseer.Proofs.Process.Supply

/-!
# Whose descriptor is taken

The code of a server keeps a `Journal`: a handler writes down which message it is called for, and
whoever takes the descriptor writes down the answer. Handlers, callbacks and the setup take it as
often as they like, in between whatever else they do, but they read nothing (`Code.Takes`). Then the
journal of a run is as it has to be (`serve_descriptors`): behind each message the first answer is
the descriptor that the peer has sent with it, if it has sent one, and all further answers are none,
up to the next message.

The invariant is `Attending`. What is in the slot of the context belongs to the message that was
handled last (`Accounted`), and the messages behind that one are held or can still be drawn
(`Channel.Awaits`). Code that takes keeps it (`attends_of_takes`), and so does a turn of the loop
that is followed by another one (`pass_attends`).
-/

namespace Overseer

variable {σ α β : Type}

/-! ## Journals -/

/-- What code writes down. -/
inductive JournalEntry where
  /-- This message is handled. -/
  | handling (m : Message)
  /-- The descriptor was taken, and this was the answer. -/
  | took (answer : Option Descriptor)
  deriving DecidableEq

/-- The state of a server, with what its code has written down, oldest first. -/
structure Journal (σ : Type) where
  server : σ
  entries : List JournalEntry := []

namespace World

/-- From one world to the other nothing was read, taken or written down. -/
structure Spares (w w' : World (Journal σ)) : Prop where
  entries_eq : w'.server.entries = w.server.entries
  channel_eq : w'.context.channel = w.context.channel
  descriptor_eq : w'.context.descriptor = w.context.descriptor
  undrawn : w.process.Undrawn w'.process

theorem Spares.refl (w : World (Journal σ)) : w.Spares w := ⟨rfl, rfl, rfl, .refl _⟩

/-- What changes the process only, and draws nothing. -/
theorem Spares.of_process {w : World (Journal σ)} {process : Process}
    (h : w.process.Undrawn process) : w.Spares { w with process } :=
  ⟨rfl, rfl, rfl, h⟩

end World

namespace Code

/-- Writes something down. -/
def enter (entry : JournalEntry) : Code (Journal σ) Unit :=
  modifyServer fun s => { s with entries := s.entries ++ [entry] }

/-- Takes the descriptor, and writes down the answer. -/
def takeEntering : Code (Journal σ) (Option Descriptor) := do
  let answer ← takeDescriptor
  enter (.took answer)
  pure answer

/-- Code that reads nothing, and takes the descriptor as often as it likes: it is put together from
takings and from code that does neither. -/
inductive Takes : {α : Type} → Code (Journal σ) α → Prop
  /-- It does neither. -/
  | spares {α : Type} {code : Code (Journal σ) α} (h : code.Within World.Spares) : Takes code
  /-- It takes the descriptor once. -/
  | takes : Takes takeEntering
  | bind {α β : Type} {code : Code (Journal σ) α} {f : α → Code (Journal σ) β} (h : Takes code)
      (hf : ∀ a, Takes (f a)) : Takes (code >>= f)
  /-- It goes on behind a failure. -/
  | recovers {α : Type} {code : Code (Journal σ) α} {recover : Halt → Code (Journal σ) α}
      (h : Takes code) (hrecover : ∀ halt, Takes (recover halt)) : Takes (tryCatch code recover)

/-! ### What code can do but read and take -/

theorem spares_pure (a : α) : Within World.Spares (pure a : Code (Journal σ) α) :=
  fun w => .refl w

theorem spares_throw (halt : Halt) : Within World.Spares (throw halt : Code (Journal σ) α) :=
  fun w => .refl w

/-- The server's own state is changed. -/
theorem spares_modifyServer (f : σ → σ) :
    Within World.Spares (modifyServer fun s : Journal σ => { s with server := f s.server }) :=
  fun _ => ⟨rfl, rfl, rfl, .refl _⟩

theorem spares_quit : Within World.Spares (quit : Code (Journal σ) Unit) :=
  fun _ => ⟨rfl, rfl, rfl, .refl _⟩

theorem spares_modifySignals (f : SignalState → α × SignalState) :
    Within World.Spares (modifySignals f : Code (Journal σ) α) :=
  fun _ => .of_process (Process.supply_isPrefix rfl rfl id)

theorem spares_requestQuit (signal : Signal) :
    Within World.Spares (requestQuit signal : Code (Journal σ) Unit) :=
  fun _ => .of_process (Process.sameInput_requestQuit _ signal).undrawn

/-- Something that may suspend or end the process. -/
theorem spares_disturb {f : Process → Process} (hf : ∀ p : Process, p.Undrawn (f p)) :
    Within World.Spares (disturb f : Code (Journal σ) Unit) := by
  intro w
  rw [after, disturb]
  have hundrawn := (hf w.process).trans (Process.undrawn_resume (f w.process))
  split
  all_goals
    next hrun =>
    split at hrun <;> cases hrun
    exact .of_process hundrawn

theorem spares_preempt : Within World.Spares (preempt : Code (Journal σ) Unit) :=
  spares_disturb fun p => (Process.sameInput_preempt p).undrawn

theorem spares_raise (signal : Signal) :
    Within World.Spares (raise signal : Code (Journal σ) Unit) :=
  spares_disturb fun p => (Process.sameInput_deliver p signal).undrawn

theorem spares_spin : Within World.Spares (spin : Code (Journal σ) Unit) := by
  intro w
  rw [after, spin]
  have hundrawn := Process.undrawn_awaitQuit w.process
  split
  all_goals
    next hrun =>
    split at hrun <;> cases hrun
    exact .of_process hundrawn

theorem spares_hang : Within World.Spares (hang : Code (Journal σ) Unit) :=
  fun w => .of_process (Process.undrawn_hang w.process)

/-- Whatever is sent, nothing is read. -/
theorem spares_sending {send : Channel → Process → Except ChannelError Unit × Process}
    (h : ∀ c (p : Process), ∃ sent, (send c p).2 = p.withSent sent) :
    Within World.Spares (sending send : Code (Journal σ) Unit) := by
  intro w
  obtain ⟨sent, hsent⟩ := h w.context.channel w.process
  have hsame : w.process.Undrawn (w.process.withSent sent) :=
    Process.supply_isPrefix rfl rfl id
  rw [after, sending]
  generalize send w.context.channel w.process = out at hsent
  obtain ⟨result, process⟩ := out
  obtain rfl : process = w.process.withSent sent := hsent
  cases result <;> exact .of_process hsame

theorem spares_reply (m : Message) : Within World.Spares (reply m : Code (Journal σ) Unit) :=
  spares_sending fun c p => withSent_of_encode (Frame.encodeMessage m false c.limit) none p

theorem spares_replyWith (m : Message) (d : Descriptor) :
    Within World.Spares (replyWith m d : Code (Journal σ) Unit) :=
  spares_sending fun c p => withSent_of_encode (Frame.encodeMessage m true c.limit) (some d) p

theorem spares_sendScalar (data : Octets) :
    Within World.Spares (sendScalar data : Code (Journal σ) Unit) :=
  spares_sending fun c p => withSent_of_encode (Frame.encodeScalar data c.limit) none p

end Code

/-! ## Accounts -/

namespace JournalEntry

/-- The answers to a number of takings in a row, where there is a descriptor or none. -/
def answers (d : Option Descriptor) : Nat → List JournalEntry
  | 0 => []
  | n + 1 => took d :: List.replicate n (took none)

/-- What there is to take after a number of takings. -/
def slotAfter (d : Option Descriptor) (n : Nat) : Option Descriptor := if n = 0 then d else none

/-- One taking more. -/
theorem answers_succ (d : Option Descriptor) (n : Nat) :
    answers d (n + 1) = answers d n ++ [took (slotAfter d n)] := by
  cases n with
  | zero => rfl
  | succ n => exact congrArg (took d :: ·) List.replicate_succ'

/-- Where there is no descriptor no answer is one. -/
theorem answers_none (n : Nat) : answers none n = List.replicate n (took none) := by
  cases n with
  | zero => rfl
  | succ n => rfl

end JournalEntry

/-- What is written down of a message, if the descriptor is taken so many times before the next one
is handled. -/
def Envelope.entries (e : Envelope) (takings : Nat) : List JournalEntry :=
  .handling e.message :: JournalEntry.answers e.descriptor takings

/-- The messages that were handled account for what is written down, and for the slot: a message
puts its descriptor there, or empties it, and a taking answers with what is there. -/
inductive Accounted : List Envelope → List JournalEntry → Option Descriptor → Prop
  | start : Accounted [] [] none
  | handling {es : List Envelope} {entries : List JournalEntry} {slot : Option Descriptor}
      (h : Accounted es entries slot) (e : Envelope) :
      Accounted (es ++ [e]) (entries ++ [.handling e.message]) e.descriptor
  | took {es : List Envelope} {entries : List JournalEntry} {slot : Option Descriptor}
      (h : Accounted es entries slot) : Accounted es (entries ++ [.took slot]) none

/-- **What is written down, message by message.** -/
theorem Accounted.entries_eq {es : List Envelope} {entries : List JournalEntry}
    {slot : Option Descriptor} (h : Accounted es entries slot) :
    ∃ early takings, takings.length = es.length ∧
      entries = List.replicate early (.took none) ++
        (List.zipWith Envelope.entries es takings).flatten := by
  -- the last message is not done with: it may have been taken from any number of times
  suffices hlast : ∃ (before : List JournalEntry) (d : Option Descriptor) (n : Nat),
      entries = before ++ JournalEntry.answers d n ∧ slot = JournalEntry.slotAfter d n ∧
        ∀ m, ∃ early takings, takings.length = es.length ∧
          before ++ JournalEntry.answers d m = List.replicate early (.took none) ++
            (List.zipWith Envelope.entries es takings).flatten by
    obtain ⟨before, d, n, rfl, -, hall⟩ := hlast
    exact hall n
  induction h with
  | start =>
    refine ⟨[], none, 0, rfl, rfl, fun m => ⟨m, [], rfl, ?_⟩⟩
    rw [JournalEntry.answers_none]
    exact (List.append_nil _).symm
  | @handling es _ _ _ e ih =>
    obtain ⟨before, d, n, rfl, -, hall⟩ := ih
    refine ⟨_, e.descriptor, 0, (List.append_nil _).symm, rfl, fun m => ?_⟩
    obtain ⟨early, takings, hlen, hentries⟩ := hall n
    refine ⟨early, takings ++ [m], ?_, ?_⟩
    · rw [List.length_append, List.length_append, hlen]
      rfl
    · rw [hentries, List.zipWith_append hlen.symm, List.flatten_append, List.append_assoc,
        List.append_assoc]
      exact congrArg _ (congrArg _ (List.append_nil _).symm)
  | took _ ih =>
    obtain ⟨before, d, n, rfl, rfl, hall⟩ := ih
    refine ⟨before, d, n + 1, ?_, rfl, hall⟩
    rw [JournalEntry.answers_succ, List.append_assoc]

/-! ## Attending to messages -/

namespace Loop

open Code (Ensures Takes)

/-- Some of the messages that were sent were handled, and account for what is written down and for
the slot; the others are awaited. -/
def Attending (sent : List Envelope) (w : World (Journal σ)) : Prop :=
  ∃ handled later, sent = handled ++ later ∧
    Accounted handled w.server.entries w.context.descriptor ∧
    w.context.channel.Awaits w.process (later.map .envelope)

/-- The first of the messages that are awaited has come. -/
def Facing (sent : List Envelope) (e : Envelope) (w : World (Journal σ)) : Prop :=
  ∃ handled later, sent = handled ++ e :: later ∧
    (∃ slot, Accounted handled w.server.entries slot) ∧
    w.context.channel.Awaits w.process (later.map .envelope)

/-- Some of the messages that were sent were handled, and account for what is written down. -/
def Settled (sent : List Envelope) (w : World (Journal σ)) : Prop :=
  ∃ handled slot, handled <+: sent ∧ Accounted handled w.server.entries slot

variable {sent : List Envelope} {w w' : World (Journal σ)}

theorem Attending.settled (h : Attending sent w) : Settled sent w := by
  obtain ⟨handled, later, rfl, haccounted, -⟩ := h
  exact ⟨handled, _, List.prefix_append .., haccounted⟩

theorem Attending.of_spares (h : Attending sent w) (hspares : w.Spares w') :
    Attending sent w' := by
  obtain ⟨handled, later, hsent, haccounted, hawaits⟩ := h
  refine ⟨handled, later, hsent, ?_, ?_⟩
  · rwa [hspares.entries_eq, hspares.descriptor_eq]
  · rw [hspares.channel_eq]
    exact hawaits.of_undrawn hspares.undrawn

/-- Where nothing is written down everything stays settled. -/
theorem Settled.of_entries_eq (h : Settled sent w)
    (hentries : w'.server.entries = w.server.entries) : Settled sent w' := by
  obtain ⟨handled, slot, hhandled, haccounted⟩ := h
  exact ⟨handled, slot, hhandled, by rwa [hentries]⟩

theorem attends_of_spares {code : Code (Journal σ) α} (h : code.Within World.Spares) :
    Ensures (Attending sent) code (fun _ => Attending sent) (Attending sent) :=
  .of_within h fun _ _ => Attending.of_spares

/-- **Code that takes attends to the messages**: whatever is in the slot is the answer, and it is
the descriptor of the message that was handled last. -/
theorem attends_of_takes {code : Code (Journal σ) α} (h : Takes code) :
    Ensures (Attending sent) code (fun _ => Attending sent) (Attending sent) := by
  induction h with
  | spares h => exact attends_of_spares h
  | takes =>
    rintro w ⟨handled, later, hsent, haccounted, hawaits⟩
    exact ⟨handled, later, hsent, haccounted.took, hawaits⟩
  | bind _ _ ih ihf => exact ih.bind ihf
  | recovers _ _ ih ihr => exact ih.tryCatch ihr

/-! ## Servers that keep a journal -/

/-- A server whose code keeps the journal: a handler writes down the message and goes on with code
that takes, as do the callbacks and the setup. The last hook writes nothing down. -/
structure KeepsJournal (srv : Server (Journal σ)) (table : SignalTable (Callback (Journal σ))) :
    Prop where
  setup : Takes srv.setup
  handlers {name : String} {handler : Handler (Journal σ)}
    (h : srv.handlers.get? name = some handler) (args : List Octets) :
    ∃ body, Takes body ∧
      handler args = (Code.enter (.handling ⟨name, args⟩) >>= fun _ => body)
  callbacks {signal : Signal} {run : Callback (Journal σ)} (h : table.callback? signal = some run) :
    Takes (run signal)
  finalize : srv.finalize.Within fun w w' => w'.server.entries = w.server.entries

variable {srv : Server (Journal σ)} {table : SignalTable (Callback (Journal σ))}

/-! ## A turn of the loop -/

/-- What is true when a message was to be received. -/
def Received (sent : List Envelope) : Reception Envelope → World (Journal σ) → Prop
  | .item e => Facing sent e
  | .failed .interrupted => Attending sent
  | .ended | .failed _ | .waiting => Settled sent

theorem receive_attends :
    Ensures (Attending sent) (Code.receive : Code (Journal σ) (Reception Envelope))
      (Received sent) (Settled sent) := by
  rintro w ⟨handled, later, rfl, haccounted, hawaits⟩
  generalize hout : Channel.nextFrame Process.transport w.context.channel w.process = out
  obtain ⟨r, channel, process⟩ := out
  have hfetched := ((Channel.fetches_iff Process.transport_lawful).2 hout).fetched hawaits
  have hsettled : Settled (handled ++ later) (w.holding channel process) :=
    ⟨handled, _, List.prefix_append .., haccounted⟩
  rw [Code.receive_apply hout]
  cases hfetched with
  | @next item left _ _ hitems h =>
    cases later with
    | nil => cases hitems
    | cons e later =>
      obtain ⟨rfl, rfl⟩ := List.cons.inj hitems
      exact ⟨handled, later, rfl, ⟨_, haccounted⟩, h⟩
  | interrupted h => exact ⟨handled, later, rfl, haccounted, h⟩
  | lacks hitem hinterrupted =>
    cases r with
    | item value => exact absurd rfl (hitem value)
    | ended | waiting => exact hsettled
    | failed e =>
      cases e with
      | interrupted => exact absurd rfl hinterrupted
      | _ => exact hsettled

/-- **A message is handled with its own descriptor in the slot.** -/
theorem dispatch_attends (hsrv : KeepsJournal srv table) (e : Envelope) :
    Ensures (Facing sent e) (dispatch srv.handlers e) (fun _ => Attending sent)
      (Settled sent) := by
  rintro w ⟨handled, later, rfl, ⟨slot, haccounted⟩, hawaits⟩
  rw [dispatch_apply]
  cases hget : srv.handlers.get? e.message.name with
  | none => exact ⟨handled, slot, List.prefix_append .., haccounted⟩
  | some handler =>
    obtain ⟨body, hbody, heq⟩ := hsrv.handlers hget e.message.args
    simp only [heq]
    have hentered : Attending (handled ++ e :: later)
        { w.given e with
          server := { w.server with
            entries := w.server.entries ++ [.handling e.message] } } := by
      refine ⟨handled ++ [e], later, ?_, haccounted.handling e, hawaits⟩
      rw [List.append_assoc]
      rfl
    exact (attends_of_takes hbody).weaken (fun _ _ h => h) (fun _ => Attending.settled) _ hentered

theorem pendingQuit_spares :
    Code.Within World.Spares (pendingQuit : Code (Journal σ) (Option Signal)) := by
  intro w
  rw [Code.after, pendingQuit_apply]
  cases w.context.managed with
  | true => exact Code.spares_modifySignals SignalState.takeQuit w
  | false => exact .refl w

theorem runDeferred_attends (hsrv : KeepsJournal srv table) :
    Ensures (Attending sent) (runDeferred table) (fun _ => Attending sent) (Attending sent) := by
  have hcall (signal : Signal) : Ensures (Attending sent) (callBack table signal)
      (fun _ => Attending sent) (Attending sent) := by
    unfold callBack
    split
    · next run hget => exact attends_of_takes (hsrv.callbacks hget)
    · exact attends_of_spares (Code.spares_pure ())
  refine .get_bind fun w => ?_
  split
  · exact (attends_of_spares (Code.spares_modifySignals _)).bind fun _ => .forM hcall
  · exact .pure fun _ h => h

theorem checkQuit_attends :
    Ensures (Attending sent) (checkQuit : Code (Journal σ) (Option LoopExit))
      (fun _ => Attending sent) (Attending sent) := by
  refine (attends_of_spares pendingQuit_spares).bind fun request => ?_
  cases request with
  | some signal => exact fun w hw => hw
  | none => exact fun w hw => hw

/-- What is true when a turn of the loop is through: if it is followed by another one the rest is
attended to. -/
def Turned (sent : List Envelope) : Option LoopExit → World (Journal σ) → Prop
  | none => Attending sent
  | some _ => Settled sent

theorem turned_of_attending (exit : Option LoopExit) (h : Attending sent w) :
    Turned sent exit w := by
  cases exit with
  | none => exact h
  | some exit => exact h.settled

/-- The end of a turn that handled a message or was interrupted. -/
theorem lookAround_attends (hsrv : KeepsJournal srv table) :
    Ensures (Attending sent) (runDeferred table >>= fun _ => checkQuit) (Turned sent)
      (Settled sent) :=
  ((runDeferred_attends hsrv).bind fun _ => checkQuit_attends).weaken
    (fun exit _ => turned_of_attending exit) fun _ => Attending.settled

/-- Where everything is settled a request to quit is taken up, and nothing is written down. -/
theorem pendingQuit_settled :
    Ensures (Settled sent) (pendingQuit : Code (Journal σ) (Option Signal))
      (fun _ => Settled sent) (Settled sent) :=
  .of_within pendingQuit_spares fun _ _ h hspares => h.of_entries_eq hspares.entries_eq

/-- **A turn of the loop** that is followed by another one leaves the rest to be attended to. -/
theorem pass_attends (hsrv : KeepsJournal srv table) :
    Ensures (Attending sent) (pass srv.handlers table) (Turned sent) (Settled sent) := by
  rw [pass_eq]
  refine receive_attends.bind fun r => ?_
  cases r with
  | item e => exact (dispatch_attends hsrv e).bind fun _ => lookAround_attends hsrv
  | ended => exact pendingQuit_settled.bind fun _ => .pure fun _ h => h
  | failed e =>
    cases e with
    | interrupted => exact lookAround_attends hsrv
    | _ =>
      refine pendingQuit_settled.bind fun request => ?_
      cases request with
      | some signal => exact .pure fun _ h => h
      | none => exact .throw fun _ h => h
  | waiting => exact .throw fun _ h => h

/-! ## The loop -/

theorem within_attends (hsrv : KeepsJournal srv table) (turns : Nat) :
    Ensures (Attending sent) (within srv.handlers table turns) (fun _ => Settled sent)
      (Settled sent) := by
  induction turns with
  | zero => exact .throw fun _ => Attending.settled
  | succ turns ih =>
    refine (pass_attends hsrv).bind fun exit => ?_
    cases exit with
    | some exit => exact .pure fun _ h => h
    | none => exact ih

/-- The last hook writes nothing down. -/
theorem finalizing_settled (hsrv : KeepsJournal srv table) (r : Except LoopError LoopExit) :
    Ensures (Settled sent) (finalizing srv r) (fun _ => Settled sent) (Settled sent) := by
  intro w hw
  have hfinal := hw.of_entries_eq (hsrv.finalize w)
  rw [Code.after] at hfinal
  unfold finalizing
  generalize srv.finalize w = out at hfinal
  cases out with
  | ok a w' => cases r <;> exact hfinal
  | error halt w' =>
    cases halt with
    | failed e => cases r <;> exact hfinal
    | panicked | ended | waiting => exact hfinal

/-- **The setup, the loop and the last hook.** -/
theorem hooked_attends (hsrv : KeepsJournal srv table) :
    Ensures (Attending sent) (hooked srv table) (fun _ => Settled sent) (Settled sent) := by
  have hrun : Ensures (Attending sent) (do srv.setup; run srv.handlers table)
      (fun _ => Settled sent) (Settled sent) := by
    refine ((attends_of_takes hsrv.setup).weaken (fun _ _ h => h)
      fun _ => Attending.settled).bind fun _ => .get_bind fun w => ?_
    exact within_attends hsrv (w.pendingInput + 1)
  intro w hw
  have hfirst := hrun w hw
  unfold hooked
  generalize (do srv.setup; run srv.handlers table : Code (Journal σ) LoopExit) w = out at hfirst
  cases out with
  | ok exit w' => exact finalizing_settled hsrv (.ok exit) w' hfirst
  | error halt w' =>
    cases halt with
    | failed e => exact finalizing_settled hsrv (.error e) w' hfirst
    | panicked | ended | waiting => exact hfirst

theorem takeOver_attends :
    Ensures (Attending sent) (takeOver table) (fun _ => Attending sent) (Attending sent) := by
  have hbind (plan : List (Signal × Disposition)) (signals : List Signal) (m : SignalManager) :
      Ensures (Attending sent) (bindAll plan signals m : Code (Journal σ) SignalManager)
        (fun _ => Attending sent) (Attending sent) := by
    induction signals generalizing m with
    | nil => exact fun w hw => hw
    | cons signal signals ih =>
      refine (attends_of_spares (Code.spares_modifySignals _)).bind fun m => ?_
      exact (attends_of_spares Code.spares_preempt).bind fun _ => ih m
  refine (attends_of_spares (Code.spares_modifySignals _)).bind fun _ => ?_
  refine (hbind _ _ _).bind fun m => .get_bind fun w => ?_
  refine (attends_of_spares (Code.spares_modifySignals _)).bind fun _ => ?_
  exact (attends_of_spares Code.spares_preempt).bind fun _ => .pure fun _ h => h

/-- Putting the signals back writes nothing down. -/
theorem restoring_settled {pre : World (Journal σ) → Prop} {code : Code (Journal σ) LoopExit}
    (h : Ensures pre code (fun _ => Settled sent) (Settled sent)) (m : SignalManager) :
    Ensures pre (restoring m code) (fun _ => Settled sent) (Settled sent) := by
  intro w hw
  have hrun := h w hw
  unfold restoring
  generalize code w = out at hrun
  cases out with
  | ok exit w' => exact Settled.of_entries_eq hrun rfl
  | error halt w' =>
    cases halt with
    | failed | panicked => exact Settled.of_entries_eq hrun rfl
    | ended | waiting => exact hrun

theorem serve_attends {config : Config} {server : Journal σ} {process : Process}
    (hsrv : KeepsJournal srv (tableOf srv config server))
    (hw : Attending sent (start server config process)) :
    Settled sent ((serve srv config).after (start server config process)) := by
  have hserve : Ensures (· = start server config process) (serve srv config)
      (fun _ => Settled sent) (Settled sent) := by
    rintro w rfl
    cases hmanaged : config.manageSignals with
    | true =>
      rw [serve_of_managed hmanaged]
      refine (Ensures.bind (takeOver_attends.weaken (fun _ _ h => h) fun _ => Attending.settled)
        fun m => restoring_settled (hooked_attends hsrv) m) _ hw
    | false =>
      rw [serve_of_unmanaged hmanaged]
      exact hooked_attends hsrv _ hw
  exact hserve.after rfl

/-- **A handler only sees the descriptor of its own message.** A peer sends messages one after the
other, with and without descriptors, over a transport that takes its writes apart as it likes, until
it is done or a call fails; and a process is brought what is on its way, or the front part of it, in
segments of any length that carry one descriptor at most, among signals and whatever else happens.
The code of the server reads nothing. It takes the descriptor as often as it likes, and keeps a
journal.

Then the journal says, message by message: this one is handled, and if the descriptor is taken
before the next one is, the first answer is the descriptor that was sent with it, or none if there
was none, and all further answers are none. Before the first message all answers are none, those to
the setup among them. -/
theorem serve_descriptors {τ : Type} {T : Transport τ} (hT : T.Lawful) (sender : Channel)
    (sent : List Envelope) (t : τ) (srv : Server (Journal σ)) (config : Config) (server : σ)
    (process : Process) (hplain : ∀ segment ∈ process.supply, segment.Plain)
    (hbrings : Segment.flow process.supply <+:
      Channel.putStream T sender (sent.map .envelope) t)
    (hsrv : KeepsJournal srv (tableOf srv config ⟨server, []⟩)) :
    ∃ early takings, takings.length ≤ sent.length ∧
      ((serve srv config).after (start ⟨server, []⟩ config process)).server.entries =
        List.replicate early (.took none) ++
          (List.zipWith Envelope.entries sent takings).flatten := by
  obtain ⟨reached, hreached, hencodes, hflow⟩ :=
    Channel.putStream_isPrefix hT sender (sent.map .envelope) t
  obtain ⟨begun, hbegun, rfl⟩ := List.prefix_map_iff.1 hreached
  have hattending : Attending begun (start ⟨server, []⟩ config process) :=
    ⟨[], begun, rfl, .start, fun item hmem => ⟨_, hencodes item hmem⟩, [], _, rfl, rfl, rfl,
      hplain, hbrings.trans hflow⟩
  obtain ⟨handled, slot, hhandled, haccounted⟩ := serve_attends hsrv hattending
  obtain ⟨later, rfl⟩ := hhandled.trans hbegun
  obtain ⟨early, takings, hlen, hentries⟩ := haccounted.entries_eq
  refine ⟨early, takings, ?_, ?_⟩
  · rw [hlen, List.length_append]
    exact Nat.le_add_right ..
  · have hzip : List.zipWith Envelope.entries (handled ++ later) (takings ++ []) = _ :=
      List.zipWith_append hlen.symm
    rw [List.append_nil, List.zipWith_nil_right, List.append_nil] at hzip
    rw [hentries, hzip]

/-! ### A clerk -/

/-- Takes the descriptor so many times. -/
def takeTimes : Nat → Code (Journal σ) Unit
  | 0 => pure ()
  | n + 1 => Code.takeEntering >>= fun _ => takeTimes n

theorem takes_takeTimes (n : Nat) : Takes (takeTimes n : Code (Journal σ) Unit) := by
  induction n with
  | zero => exact .spares (Code.spares_pure ())
  | succ n ih => exact .bind .takes fun _ => ih

/-- A server that takes the descriptor twice for `open`, and answers; for `skip` it leaves the
descriptor and counts. It takes it in its setup, too, and when a signal tells it to. -/
def clerk : Server (Journal Nat) where
  name _ := "clerk"
  handlers := (({} : Handlers (Handler (Journal Nat))).on "open" fun args => do
      Code.enter (.handling ⟨"open", args⟩)
      takeTimes 2
      Code.reply ⟨"done", args⟩).on "skip" fun args => do
        Code.enter (.handling ⟨"skip", args⟩)
        Code.modifyServer fun s => { s with server := s.server + 1 }
  bindSignals _ t := t.set .usr1 (.callback fun _ => takeTimes 1)
  setup := takeTimes 1

theorem clerk_keepsJournal : KeepsJournal clerk (tableOf clerk {} ⟨0, []⟩) where
  setup := takes_takeTimes 1
  handlers {name} {handler} h args := by
    simp only [clerk, Handlers.get?_on] at h
    split at h
    · next hname =>
      cases h
      exact ⟨_, .spares (Code.spares_modifyServer (· + 1)), by rw [hname]⟩
    · split at h
      · next hname =>
        cases h
        have hbody := (takes_takeTimes (σ := Nat) 2).bind fun _ =>
          .spares (Code.spares_reply ⟨"done", args⟩)
        exact ⟨_, hbody, by rw [hname]⟩
      · cases h
  callbacks {signal} {run} h := by
    cases signal <;> cases h
    exact takes_takeTimes 1
  finalize _ := rfl

/-- Five messages, three of them with a descriptor. The peer is interrupted inside of the first, and
the segments are others than it has written. The first descriptor is taken twice, the second is left
and gone, and the third is left by its handler and taken when a signal comes. -/
theorem serve_descriptors_clerk :
    let sent : List Envelope := [⟨⟨"open", []⟩, some ⟨"log"⟩⟩, ⟨⟨"open", []⟩, none⟩,
      ⟨⟨"skip", []⟩, some ⟨"key"⟩⟩, ⟨⟨"open", []⟩, none⟩, ⟨⟨"skip", []⟩, some ⟨"map"⟩⟩]
    let t : Scripted := { writes := [.accept 1, .fault (.plain .interrupted), .accept 3] }
    let octets := sent.flatMap fun e => (Item.envelope e).octets
    let process : Process :=
      { coming := [
          .arrive ⟨octets.take 2, [⟨"log"⟩], false⟩,
          .arrive ⟨(octets.drop 2).take 30, [], false⟩,
          .arrive ⟨(octets.drop 32).take 20, [⟨"key"⟩], false⟩,
          .arrive ⟨(octets.drop 52).take 12, [], false⟩,
          .arrive ⟨octets.drop 64, [⟨"map"⟩], false⟩,
          .signal .usr1,
          .finish] }
    let journal := ((serve clerk {}).after (start ⟨0, []⟩ {} process)).server.entries
    (Channel.putEach (Scripted.transport .full) {} (sent.map .envelope) t).1 = .ok () ∧
    (∃ early takings, takings.length ≤ sent.length ∧
      journal = List.replicate early (.took none) ++
        (List.zipWith Envelope.entries sent takings).flatten) ∧
    journal = [.took none,
      .handling ⟨"open", []⟩, .took (some ⟨"log"⟩), .took none,
      .handling ⟨"open", []⟩, .took none, .took none,
      .handling ⟨"skip", []⟩,
      .handling ⟨"open", []⟩, .took none, .took none,
      .handling ⟨"skip", []⟩, .took (some ⟨"map"⟩)] := by
  intro sent t octets process journal
  have hT : (Scripted.transport .full).Lawful := Scripted.transport_lawful .full
  refine ⟨rfl, serve_descriptors hT {} sent t clerk {} 0 process ?_ ?_ clerk_keepsJournal, ?_⟩
  · decide +kernel
  · decide +kernel
  · decide +kernel

end Loop

end Overseer
