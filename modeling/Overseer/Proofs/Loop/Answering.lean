import Overseer.Proofs.Loop.Dispatch
import Overseer.Proofs.Loop.TakeOver
import Overseer.Proofs.Process.Still

/-!
# A server that answers

A server replies (`Server.Replies`) if each of its handlers sends one message, and neither reads
anything nor tells the loop to quit. Which message that is, and what becomes of the server, is up to
the arguments and the server's state: `replies` are the answers to some messages, one after the
other. It answers (`Server.Answers`) if, moreover, nothing else that it runs sends anything: neither
its setup nor a callback.

What such a server has written by the time it waits is decided by how many octets have reached it:
the answers to the messages that have arrived in whole (`Message.arrived`), in order, whatever is
read at once and whether it manages its signals or not (`serve_answers`).
-/

namespace Overseer

variable {σ : Type}

/-! ## Messages and their answers -/

/-- A message as it is sent on its own. -/
def Message.item (m : Message) : Item := .envelope ⟨m, none⟩

namespace Envelope

/-- A message with its descriptor, as it is sent. -/
def item (e : Envelope) : Item := .envelope e

/-- What is written of it at once. -/
def segment (e : Envelope) : Segment := ⟨e.item.octets, e.descriptor.toList, false⟩

theorem stream_segment (e : Envelope) : e.segment.stream = e.item.stream := by
  obtain ⟨m, d⟩ := e
  cases d <;> rfl

theorem plain_segment (e : Envelope) : e.segment.Plain := by
  refine ⟨e.item.octets_ne_nil, ?_⟩
  obtain ⟨m, d⟩ := e
  cases d
  · exact Nat.zero_le _
  · exact Nat.le_refl _

/-- What is written of some messages, one after the other. -/
theorem flow_segments (es : List Envelope) :
    Segment.flow (es.map segment) = (es.map item).flatMap Item.stream := by
  induction es with
  | nil => rfl
  | cons e es ih =>
    rw [List.map_cons, Segment.flow_cons, ih, stream_segment, List.map_cons, List.flatMap_cons]

end Envelope

namespace Message

/-- The octets of some messages, one after the other. -/
def flow (messages : List Message) : Stream := (messages.map item).flatMap Item.stream

@[simp] theorem flow_nil : flow [] = [] := rfl

@[simp] theorem flow_cons (m : Message) (messages : List Message) :
    flow (m :: messages) = m.item.stream ++ flow messages := rfl

@[simp] theorem flow_append (messages more : List Message) :
    flow (messages ++ more) = flow messages ++ flow more := by
  rw [flow, List.map_append, List.flatMap_append]
  rfl

/-- The messages that have arrived in whole when so many octets have. -/
def arrived : Nat → List Message → List Message
  | _, [] => []
  | n, m :: messages =>
    if m.item.stream.length ≤ n then m :: arrived (n - m.item.stream.length) messages else []

/-- Something is written of each item. -/
theorem length_stream_pos (item : Item) : 0 < item.stream.length := by
  rw [Item.stream, ← Stream.length_octets, Stream.octets_tagged]
  exact List.length_pos_iff.2 item.octets_ne_nil

/-- When the octets of the first messages have arrived, those messages have. -/
theorem arrived_of_isPrefix {asked messages : List Message} (h : asked <+: messages) :
    arrived (flow asked).length messages = asked := by
  obtain ⟨rest, rfl⟩ := h
  induction asked with
  | nil =>
    cases rest with
    | nil => rfl
    | cons m rest => exact if_neg (Nat.not_le.2 (length_stream_pos m.item))
  | cons m asked ih =>
    rw [List.cons_append, arrived, flow_cons, List.length_append, if_pos (Nat.le_add_right ..),
      Nat.add_sub_cancel_left, ih]

/-- More octets are no fewer messages. -/
theorem arrived_isPrefix {n n' : Nat} (h : n ≤ n') (messages : List Message) :
    arrived n messages <+: arrived n' messages := by
  induction messages generalizing n n' with
  | nil => exact List.prefix_refl _
  | cons m messages ih =>
    rw [arrived, arrived]
    split
    · rw [if_pos (by omega)]
      exact List.prefix_cons_inj m |>.2 (ih (by omega))
    · exact List.nil_prefix

end Message

/-- The answers to some messages, given in the order of the messages: each by the server that the
ones before have left. -/
def replies (answer : Message → σ → Envelope × σ) : σ → List Message → List Envelope
  | _, [] => []
  | server, m :: messages =>
    (answer m server).1 :: replies answer (answer m server).2 messages

/-- There is an answer to each message. -/
theorem length_replies (answer : Message → σ → Envelope × σ) (server : σ)
    (messages : List Message) : (replies answer server messages).length = messages.length := by
  induction messages generalizing server with
  | nil => rfl
  | cons m messages ih => rw [replies, List.length_cons, ih, List.length_cons]

/-- What some messages leave of a server. -/
def leaves (answer : Message → σ → Envelope × σ) (server : σ) (messages : List Message) : σ :=
  messages.foldl (fun server m => (answer m server).2) server

/-- Later messages are answered by what the earlier ones leave. -/
theorem replies_append (answer : Message → σ → Envelope × σ) (server : σ)
    (messages more : List Message) :
    replies answer server (messages ++ more) =
      replies answer server messages ++ replies answer (leaves answer server messages) more := by
  induction messages generalizing server with
  | nil => rfl
  | cons m messages ih => exact congrArg _ (ih _)

/-- The answers to the first messages come first. -/
theorem replies_isPrefix (answer : Message → σ → Envelope × σ) (server : σ)
    {messages more : List Message} (h : messages <+: more) :
    replies answer server messages <+: replies answer server more := by
  obtain ⟨rest, rfl⟩ := h
  rw [replies_append]
  exact List.prefix_append ..

/-- Each message is answered by what those before it leave. -/
theorem getElem?_replies (answer : Message → σ → Envelope × σ) (server : σ)
    {messages : List Message} {n : Nat} {m : Message} (h : messages[n]? = some m) :
    (replies answer server messages)[n]? =
      some (answer m (leaves answer server (messages.take n))).1 := by
  induction messages generalizing n server with
  | nil => cases h
  | cons other messages ih =>
    cases n with
    | zero =>
      cases h
      rfl
    | succ n => exact ih _ h

/-- A server that answers each message with itself. -/
theorem replies_of_echo {answer : Message → σ → Envelope × σ} {messages : List Message}
    (h : ∀ m ∈ messages, ∀ server, (answer m server).1 = ⟨m, none⟩) (server : σ) :
    replies answer server messages = messages.map fun m => ⟨m, none⟩ := by
  induction messages generalizing server with
  | nil => rfl
  | cons m messages ih =>
    obtain ⟨hm, hrest⟩ := List.forall_mem_cons.1 h
    rw [replies, hm, ih hrest, List.map_cons]

/-! ## What code does that answers -/

namespace World

/-- Only its peer and its own code have to do with a loop: no signal is on its way, and it was not
told to quit. -/
structure AtRest (w : World σ) (s : Stream) : Prop where
  still : w.process.Still s
  done_eq : w.context.done = false
  unasked : w.process.signals.quitRequest = none

/-- Some code has written something and changed the server. It has read nothing, and has not told
the loop to quit. -/
structure Writes (w w' : World σ) (server : σ) (sent : List Segment) : Prop where
  server_eq : w'.server = server
  context_eq : w'.context = { w.context with descriptor := w'.context.descriptor }
  inbox_eq : w'.process.inbox = w.process.inbox
  coming_eq : w'.process.coming = w.process.coming
  arrivals_eq : w'.process.arrivals = w.process.arrivals
  status_eq : w'.process.status = w.process.status
  peerGone_eq : w'.process.peerGone = w.process.peerGone
  request_eq : w'.process.signals.quitRequest = w.process.signals.quitRequest
  sent_eq : w'.process.sent = w.process.sent ++ sent

variable {w w' w'' : World σ} {s : Stream} {server server' : σ} {sent more : List Segment}

theorem Writes.channel_eq (h : w.Writes w' server sent) :
    w'.context.channel = w.context.channel := by
  rw [h.context_eq]

/-- Code that does nothing has written nothing. -/
theorem Writes.refl (w : World σ) : w.Writes w w.server [] :=
  ⟨rfl, rfl, rfl, rfl, rfl, rfl, rfl, rfl, (List.append_nil _).symm⟩

/-- Code after code. -/
theorem Writes.trans (h : w.Writes w' server sent) (h' : w'.Writes w'' server' more) :
    w.Writes w'' server' (sent ++ more) where
  server_eq := h'.server_eq
  context_eq := by rw [h'.context_eq, h.context_eq]
  inbox_eq := h'.inbox_eq.trans h.inbox_eq
  coming_eq := h'.coming_eq.trans h.coming_eq
  arrivals_eq := h'.arrivals_eq.trans h.arrivals_eq
  status_eq := h'.status_eq.trans h.status_eq
  peerGone_eq := h'.peerGone_eq.trans h.peerGone_eq
  request_eq := h'.request_eq.trans h.request_eq
  sent_eq := by rw [h'.sent_eq, h.sent_eq, List.append_assoc]

/-- Taking up the marks writes nothing. -/
theorem Writes.of_takePending (w : World σ) :
    w.Writes { w with process := { w.process with signals := w.process.signals.takePending.2 } }
      w.server [] :=
  ⟨rfl, rfl, rfl, rfl, rfl, rfl, rfl, rfl, (List.append_nil _).symm⟩

/-- The loop stays at rest. -/
theorem AtRest.of_writes (h : w.AtRest s) (hwrites : w.Writes w' server sent) : w'.AtRest s := by
  obtain ⟨segments, hcoming, hplain, hflow⟩ := h.still.coming
  refine ⟨⟨hwrites.status_eq.trans h.still.running, hwrites.arrivals_eq.trans h.still.arrivals_eq,
    hwrites.peerGone_eq.trans h.still.peer_there, ?_, ?_, ?_, segments,
    hwrites.coming_eq.trans hcoming, hplain, ?_⟩, ?_, hwrites.request_eq.trans h.unasked⟩
  · rw [hwrites.inbox_eq]
    exact h.still.shut_eq
  · rw [hwrites.inbox_eq]
    exact h.still.reset_eq
  · rw [hwrites.inbox_eq]
    exact h.still.queued
  · rw [hwrites.inbox_eq]
    exact hflow
  · rw [hwrites.context_eq]
    exact h.done_eq

/-- So it does where something was read. -/
theorem AtRest.of_follows (h : w.AtRest s) {c : Channel} {p : Process} {s' : Stream}
    (hfollows : Process.Follows w.process p s') : (w.holding c p).AtRest s' := by
  refine ⟨hfollows.still, h.done_eq, ?_⟩
  show p.signals.quitRequest = _
  rw [hfollows.eq_of]
  exact h.unasked

end World

/-- Each message that a server knows is answered with one message that its channel admits. Which one
that is, and what becomes of the server, is up to the message and the server. -/
structure Server.Replies (srv : Server σ) (limit : Nat) (answer : Message → σ → Envelope × σ) :
    Prop where
  admits : ∀ (m : Message) (handler : Handler σ), Frame.Encodable m limit →
    srv.handlers.get? m.name = some handler →
    ∀ server, Frame.Encodable (answer m server).1.message limit
  handles : ∀ (m : Message) (handler : Handler σ), Frame.Encodable m limit →
    srv.handlers.get? m.name = some handler →
    ∀ (w : World σ) (s : Stream), w.AtRest s → w.context.channel.limit = limit →
      w.context.descriptor = none →
      ∃ w', handler m.args w = .ok () w' ∧
        w.Writes w' (answer m w.server).2 [(answer m w.server).1.segment]

namespace SignalTable

/-- Nobody else takes note of the callbacks of a table: they send nothing and leave the server as it
is. -/
def Quiet (table : SignalTable (Callback σ)) (limit : Nat) : Prop :=
  ∀ (signal : Signal) (callback : Callback σ), table.callback? signal = some callback →
    ∀ (w : World σ) (s : Stream), w.AtRest s → w.context.channel.limit = limit →
      ∃ w', callback signal w = .ok () w' ∧ w.Writes w' w.server []

/-- A table in which signals only end the loop has no callbacks. -/
theorem quiet_ofTermination (termination : Signal) (limit : Nat) :
    (ofTermination termination : SignalTable (Callback σ)).Quiet limit := by
  intro signal callback hcallback
  have hnone : (ofTermination termination : SignalTable (Callback σ)).callback? signal = none := by
    by_cases hint : signal = .int
    · simp [ofTermination, set, callback?, hint]
    · by_cases htermination : signal = termination
      · simp [ofTermination, set, callback?, htermination, htermination ▸ hint]
      · simp [ofTermination, set, callback?, hint, htermination]
  rw [hnone] at hcallback
  cases hcallback

/-- One more callback of which nobody else takes note. -/
theorem Quiet.set {table : SignalTable (Callback σ)} {limit : Nat} (h : table.Quiet limit)
    {signal : Signal} {run : Callback σ}
    (hrun : ∀ (w : World σ) (s : Stream), w.AtRest s → w.context.channel.limit = limit →
      ∃ w', run signal w = .ok () w' ∧ w.Writes w' w.server []) :
    (table.set signal (.callback run)).Quiet limit := by
  intro other callback hcallback
  by_cases hother : other = signal
  · subst hother
    have hbound : (table.set other (.callback run)).action? other = some (.callback run) :=
      if_pos rfl
    rw [callback?, hbound] at hcallback
    cases hcallback
    exact hrun
  · have hbound : (table.set signal (.callback run)).action? other = table.action? other :=
      if_neg hother
    rw [callback?, hbound] at hcallback
    exact h other callback hcallback

end SignalTable

/-- A server that replies, and whose peer finds nothing else: neither its setup nor a callback sends
anything. -/
structure Server.Answers (srv : Server σ) (limit : Nat) (prepare : σ → σ)
    (answer : Message → σ → Envelope × σ) : Prop extends Server.Replies srv limit answer where
  setup : ∀ (w : World σ) (s : Stream), w.AtRest s → w.context.channel.limit = limit →
    ∃ w', srv.setup w = .ok () w' ∧ w.Writes w' (prepare w.server) []
  quiet : ∀ (server : σ) (termination : Signal),
    (srv.bindSignals server (.ofTermination termination)).Quiet limit

/-- A message that the channel admits is sent at once, as long as the peer is there. -/
theorem Code.reply_apply {m : Message} {w : World σ} (hpeer : w.process.peerGone = false)
    (hm : Frame.Encodable m w.context.channel.limit) :
    Code.reply m w = .ok () { w with
      process := w.process.withSent (w.process.sent ++ [(⟨m, none⟩ : Envelope).segment]) } := by
  have hencode : Frame.encodeMessage m false w.context.channel.limit = .ok m.item.octets :=
    Frame.encodeMessage_eq_ok.2 ⟨hm, rfl⟩
  have hne : m.item.octets ≠ [] := m.item.octets_ne_nil
  have hwrite : Process.transport.write w.process m.item.octets none =
      (.ok m.item.octets.length,
        w.process.withSent (w.process.sent ++ [(⟨m, none⟩ : Envelope).segment])) :=
    (if_neg (by rw [hpeer]; nofun)).trans (if_neg fun hempty => hne (List.isEmpty_iff.1 hempty))
  have hframe : Channel.writeFrame Process.transport m.item.octets none w.process =
      (.ok (), w.process.withSent (w.process.sent ++ [(⟨m, none⟩ : Envelope).segment])) := by
    refine (Channel.writes_iff Process.transport_lawful).1
      (.accepted hne (fun h => hne (List.length_eq_zero_iff.1 h)) hwrite ?_)
    rw [List.drop_length]
    exact .done
  unfold Code.reply Code.sending
  simp only [Channel.send, hencode, hframe]

namespace Loop

variable {srv : Server σ} {table : SignalTable (Callback σ)} {limit : Nat} {prepare : σ → σ}
  {answer : Message → σ → Envelope × σ} {w : World σ} {s unwritten : Stream}
  {messages : List Message}

/-- The callbacks of some signals, one after the other. -/
theorem callBacks_of_quiet (hquiet : table.Quiet limit) (signals : List Signal) (h : w.AtRest s)
    (hlimit : w.context.channel.limit = limit) :
    ∃ w', signals.forM (callBack table) w = .ok () w' ∧ w.Writes w' w.server [] := by
  induction signals generalizing w with
  | nil => exact ⟨w, rfl, .refl w⟩
  | cons signal signals ih =>
    obtain ⟨w₁, hrun, hwrites⟩ :
        ∃ w₁, callBack table signal w = .ok () w₁ ∧ w.Writes w₁ w.server [] := by
      unfold callBack
      cases hcallback : table.callback? signal with
      | none => exact ⟨w, rfl, .refl w⟩
      | some callback => exact hquiet signal callback hcallback w s h hlimit
    obtain ⟨w', hrest, hwrites'⟩ := ih (h.of_writes hwrites) (by rw [hwrites.channel_eq, hlimit])
    refine ⟨w', ?_, hwrites.server_eq ▸ hwrites.trans hwrites'⟩
    show (callBack table signal >>= fun _ => signals.forM (callBack table)) w = _
    rw [Code.bind_apply, hrun]
    exact hrest

/-- A loop at rest goes on at the end of a turn. -/
theorem lookAround_of_rest (hquiet : table.Quiet limit) (h : w.AtRest s)
    (hlimit : w.context.channel.limit = limit) :
    ∃ w', (runDeferred table >>= fun _ => checkQuit) w = .ok none w' ∧
      w.Writes w' w.server [] := by
  have hgoesOn {w' : World σ} (hwrites : w.Writes w' w.server []) :
      checkQuit w' = .ok none w' := by
    have hrest := h.of_writes hwrites
    rw [checkQuit_of_none fun _ => hrest.unasked, hrest.done_eq]
    rfl
  unfold runDeferred
  rw [bind_assoc, Code.get_bind]
  split
  · obtain ⟨w', hrun, hwrites⟩ := callBacks_of_quiet hquiet w.process.signals.takePending.1
      (h.of_writes (.of_takePending w)) hlimit
    refine ⟨w', ?_, (World.Writes.of_takePending w).trans hwrites⟩
    rw [bind_assoc, Code.bind_apply, Code.takePending_apply]
    show (_ >>= fun _ => checkQuit) _ = _
    rw [Code.bind_apply, hrun]
    exact hgoesOn ((World.Writes.of_takePending w).trans hwrites)
  · exact ⟨w, hgoesOn (.refl w), .refl w⟩

/-- Once a message is received the rest of the turn replies to it. -/
theorem dispatch_of_rest {m : Message} (hsrv : srv.Replies limit answer)
    (hquiet : table.Quiet limit) (hm : Frame.Encodable m limit)
    (hknown : (srv.handlers.get? m.name).isSome) (h : w.AtRest s)
    (hlimit : w.context.channel.limit = limit) :
    ∃ w', (dispatch srv.handlers ⟨m, none⟩ >>= fun _ =>
        runDeferred table >>= fun _ => checkQuit) w = .ok none w' ∧
      w.Writes w' (answer m w.server).2 [(answer m w.server).1.segment] := by
  obtain ⟨handler, hget⟩ := Option.isSome_iff_exists.1 hknown
  have hgiven : w.Writes (w.given ⟨m, none⟩) w.server [] :=
    ⟨rfl, rfl, rfl, rfl, rfl, rfl, rfl, rfl, (List.append_nil _).symm⟩
  have hrest := h.of_writes hgiven
  obtain ⟨w₁, hrun, hreply⟩ := hsrv.handles m handler hm hget _ s hrest hlimit rfl
  obtain ⟨w', hlook, hcalls⟩ := lookAround_of_rest hquiet (hrest.of_writes hreply)
    (by rw [hreply.channel_eq]; exact hlimit)
  have hserver : w₁.server = (answer m w.server).2 := hreply.server_eq
  refine ⟨w', ?_, hserver ▸ hgiven.trans (hreply.trans hcalls)⟩
  rw [Code.bind_apply, dispatch_apply, hget]
  simp only [hrun]
  exact hlook

/-! ## The loop -/

/-- A loop that is about to receive some messages: those not yet received are on their way, but for
what is unwritten. -/
structure Awaits (srv : Server σ) (limit : Nat) (unwritten : Stream) (messages : List Message)
    (w : World σ) (s : Stream) : Prop where
  rest : w.AtRest s
  holds : Channel.Holds limit w.context.channel { queue := s } unwritten
    (messages.map Message.item)
  known : ∀ m ∈ messages, Frame.Encodable m limit ∧ (srv.handlers.get? m.name).isSome

/-- The octets that have arrived and belong to no message received so far. -/
def held (w : World σ) (s : Stream) : Nat := w.context.channel.buffer.length + s.length

/-- What a turn of an answering loop does. -/
inductive AnswerTurn (srv : Server σ) (answer : Message → σ → Envelope × σ) (limit : Nat)
    (unwritten : Stream) (w : World σ) (s : Stream) :
    List Message → EStateM.Result Halt (World σ) (Option LoopExit) → Prop
  /-- It answers the next message. -/
  | answers {m : Message} {messages : List Message} {w' : World σ} {s' : Stream}
      (h : Awaits srv limit unwritten messages w' s')
      (hheld : held w s = m.item.stream.length + held w' s')
      (hserver : w'.server = (answer m w.server).2)
      (hsent : w'.process.sent = w.process.sent ++ [(answer m w.server).1.segment]) :
      AnswerTurn srv answer limit unwritten w s (m :: messages) (.ok none w')
  /-- It waits for the rest of a message. -/
  | waits {messages : List Message} {w' : World σ}
      (hshort : ∀ m ∈ messages.head?, held w s < m.item.stream.length)
      (hopen : w'.process.inbox.shut = false) (hsent : w'.process.sent = w.process.sent) :
      AnswerTurn srv answer limit unwritten w s messages (.error .waiting w')

/-- **A turn answers the next message**, if it has arrived in whole. -/
theorem answerTurn_pass (hsrv : srv.Replies limit answer) (hquiet : table.Quiet limit)
    (h : Awaits srv limit unwritten messages w s) :
    AnswerTurn srv answer limit unwritten w s messages (pass srv.handlers table w) := by
  have hlength := h.holds.length_eq
  have hobtains := Channel.nextFrame_obtains (Process.carries_still w.process) nofun
    h.rest.still.follows h.holds
  generalize hout : Channel.nextFrame Process.transport w.context.channel w.process = out
    at hobtains
  obtain ⟨r, channel, process⟩ := out
  rw [pass_eq, Code.bind_apply, Code.receive_apply hout]
  generalize hitems : messages.map Message.item = items at hobtains hlength
  cases hobtains with
  | @next item rest _ _ s' hR hholds =>
    obtain ⟨m, messages, rfl, rfl, rfl⟩ := List.map_eq_cons_iff.1 hitems
    obtain ⟨⟨hencodable, hknown⟩, hrest⟩ := List.forall_mem_cons.1 h.known
    have hatRest : (w.holding channel process).AtRest s' := h.rest.of_follows hR
    obtain ⟨w', hturn, hwrites⟩ :=
      dispatch_of_rest hsrv hquiet hencodable hknown hatRest hholds.limit_eq
    have hchannel : w'.context.channel = channel := hwrites.channel_eq
    rw [show (Reception.item (m.item.frame, m.item.descriptor)).toEnvelope =
      .item ⟨m, none⟩ from rfl]
    show AnswerTurn _ _ _ _ _ _ _ ((dispatch srv.handlers ⟨m, none⟩ >>= fun _ =>
        runDeferred table >>= fun _ => checkQuit) (w.holding channel process))
    rw [hturn]
    refine .answers ⟨hatRest.of_writes hwrites, hchannel ▸ hholds, hrest⟩ ?_ hwrites.server_eq ?_
    · have hlength' := hholds.length_eq
      rw [List.flatMap_cons, List.length_append] at hlength
      rw [held, held, hchannel]
      simp only at hlength hlength'
      omega
    · rw [hwrites.sent_eq]
      show process.sent ++ _ = _
      rw [hR.eq_of]
      rfl
  | waits hR hholds hnone =>
    have hhalt : Code.haltOf process = .waiting := by
      rw [Code.haltOf, hR.still.running]
    show AnswerTurn _ _ _ _ _ _ _ (.error (Code.haltOf process) (w.holding channel process))
    rw [hhalt]
    refine .waits ?_ hR.still.shut_eq ?_
    · intro m hm
      obtain ⟨rest, rfl⟩ := List.head?_eq_some_iff.1 hm
      rw [List.map_cons] at hitems
      subst hitems
      have hshort := hholds.length_lt_of_none hnone
      have hlength' := hholds.length_eq
      rw [held]
      simp only [List.length_nil] at hlength hlength'
      omega
    · show process.sent = _
      rw [hR.eq_of]

/-- What an answering loop has done by the time it waits. -/
structure Answered (w w' : World σ) (es : List Envelope) : Prop where
  sent_eq : w'.process.sent = w.process.sent ++ es.map Envelope.segment
  open_eq : w'.process.inbox.shut = false

/-- **Turns enough for the input answer the messages that have arrived.** -/
theorem within_answers (hsrv : srv.Replies limit answer) (hquiet : table.Quiet limit)
    {turns : Nat} (h : Awaits srv limit unwritten messages w s) (hturns : held w s < turns) :
    ∃ w', within srv.handlers table turns w = .error .waiting w' ∧
      Answered w w' (replies answer w.server (Message.arrived (held w s) messages)) := by
  induction turns generalizing messages w s with
  | zero => omega
  | succ turns ih =>
    have hturn : AnswerTurn srv answer limit unwritten w s messages (pass srv.handlers table w) :=
      answerTurn_pass hsrv hquiet h
    rw [within, Code.bind_apply]
    generalize pass srv.handlers table w = r at hturn
    cases hturn with
    | @answers m messages w' s' h' hheld hserver hsent =>
      have hpos := Message.length_stream_pos m.item
      obtain ⟨w'', hrun, hanswered⟩ := ih h' (by omega)
      refine ⟨w'', hrun, ?_, hanswered.open_eq⟩
      rw [Message.arrived, if_pos (by omega), hheld, Nat.add_sub_cancel_left, replies,
        List.map_cons, hanswered.sent_eq, hsent, hserver, List.append_assoc]
      rfl
    | @waits _ w' hshort hopen hsent =>
      refine ⟨w', rfl, ?_, hopen⟩
      have hnone : Message.arrived (held w s) messages = [] := by
        cases messages with
        | nil => rfl
        | cons m messages => exact if_neg (Nat.not_le.2 (hshort m rfl))
      rw [hnone, hsent]
      exact (List.append_nil _).symm

/-! ## The whole run -/

/-- The setup and the loop answer the messages that have arrived. -/
theorem hooked_answers (hsrv : srv.Answers limit prepare answer) (hquiet : table.Quiet limit)
    (h : Awaits srv limit unwritten messages w s) :
    ∃ w', hooked srv table w = .error .waiting w' ∧
      Answered w w' (replies answer (prepare w.server) (Message.arrived (held w s) messages)) := by
  obtain ⟨w₁, hsetup, hwrites⟩ := hsrv.setup w s h.rest h.holds.limit_eq
  have hawaits : Awaits srv limit unwritten messages w₁ s :=
    ⟨h.rest.of_writes hwrites, hwrites.channel_eq ▸ h.holds, h.known⟩
  have hheld : held w₁ s = held w s := by rw [held, held, hwrites.channel_eq]
  have hturns : held w₁ s < w₁.pendingInput + 1 :=
    Nat.lt_succ_of_le (Nat.add_le_add_left hawaits.rest.still.length_le_inflow _)
  obtain ⟨w', hrun, hanswered⟩ := within_answers hsrv.toReplies hquiet hawaits hturns
  have hcode : (do srv.setup; run srv.handlers table : Code σ LoopExit) w =
      .error .waiting w' := by
    rw [Code.bind_apply, hsetup]
    exact hrun
  refine ⟨w', ?_, ?_, hanswered.open_eq⟩
  · simp only [hooked, hcode]
  · rw [hanswered.sent_eq, hheld, hwrites.server_eq, hwrites.sent_eq, List.append_nil]

/-- A loop at rest takes over the signals and stays at rest. -/
theorem takeOver_of_rest (table : SignalTable (Callback σ)) (h : w.AtRest s) :
    ∃ m w₀, takeOver table w = .ok m w₀ ∧ w.Writes w₀ w.server [] := by
  refine ⟨_, _, takeOver_of_quiet h.still.arrivals_eq h.still.running, ⟨rfl, rfl, rfl, rfl, rfl,
    rfl, rfl, ?_, (List.append_nil _).symm⟩⟩
  rw [SignalManager.install_snd, h.unasked]
  rfl

/-- **A server that answers has answered what has arrived** by the time it waits, whether it manages
its signals or not. -/
theorem serve_answers {config : Config} {server : σ} {process : Process}
    (hsrv : srv.Answers limit prepare answer)
    (h : Awaits srv limit unwritten messages (start server config process) s) :
    ∃ w', serve srv config (start server config process) = .error .waiting w' ∧
      Answered (start server config process) w'
        (replies answer (prepare server) (Message.arrived s.length messages)) := by
  have hheld : held (start server config process) s = s.length := Nat.zero_add _
  have hquiet : (tableOf srv config server).Quiet limit := hsrv.quiet server _
  cases hmanage : config.manageSignals with
  | false =>
    rw [serve_of_unmanaged hmanage]
    obtain ⟨w', hrun, hanswered⟩ := hooked_answers hsrv hquiet h
    exact ⟨w', hrun, hheld ▸ hanswered⟩
  | true =>
    obtain ⟨m, w₀, htake, hwrites⟩ := takeOver_of_rest (tableOf srv config server) h.rest
    have hawaits : Awaits srv limit unwritten messages w₀ s :=
      ⟨h.rest.of_writes hwrites, hwrites.channel_eq ▸ h.holds, h.known⟩
    obtain ⟨w', hrun, hanswered⟩ := hooked_answers hsrv hquiet hawaits
    rw [serve_of_managed hmanage, Code.bind_apply, htake]
    refine ⟨w', ?_, ?_, hanswered.open_eq⟩
    · simp only [restoring, hrun]
    · have hheld₀ : held w₀ s = s.length := by
        rw [held, hwrites.channel_eq]
        exact hheld
      rw [hanswered.sent_eq, hwrites.sent_eq, List.append_nil, hwrites.server_eq, hheld₀]
      rfl

end Loop

end Overseer
