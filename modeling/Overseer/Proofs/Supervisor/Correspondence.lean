import Overseer.Proofs.Loop.Answering
import Overseer.Proofs.Supervisor.Operation
import Overseer.Proofs.Supervisor.Relay

/-!
# Each reply belongs to its request

A parent that sends messages to a server which answers receives the answers, in the order of the
messages: one after each, or all of them in the end (`replies_in_order`). It does not matter when
what is written arrives, nor where reads and writes of either side are cut or interrupted.

What the child has written is decided by how much has reached it (`Child.program_responds`), so at
any time the answers to what was asked so far are received, in the parent's channel, in the line or
still to come, in this order (`Corresponds`). Sending adds an answer at the end of them, and
receiving takes the first one.

It takes a server that sends nothing else: a message of its setup or of a callback would come in
place of an answer (`replies_displaced`).
-/

namespace Overseer

variable {σ : Type}

/-! ## The child -/

/-- What can be sent at all is received within the same limit. -/
theorem Envelope.item_fits {e : Envelope} {limit : Nat} (h : Frame.Encodable e.message limit) :
    (∃ bound xs, e.item.encode bound = .ok xs) ∧ e.item.size ≤ limit :=
  ⟨⟨limit, _, Frame.encodeMessage_eq_ok.2 ⟨h, rfl⟩⟩, h.admitted⟩

/-- Messages on their own carry nothing. -/
theorem Message.descriptors_flow (messages : List Message) :
    (Message.flow messages).descriptors = [] := by
  induction messages with
  | nil => rfl
  | cons m messages ih =>
    rw [flow_cons, Stream.descriptors_append, ih, Item.stream,
      Stream.descriptors_tagged m.item.octets_ne_nil]
    rfl

/-- What a server that answers has written when so many octets of some messages have reached it. -/
def answersWithin (answer : Message → σ → Envelope × σ) (server : σ) (messages : List Message)
    (n : Nat) : List Segment :=
  (replies answer server (Message.arrived n messages)).map Envelope.segment

/-- The answers to the first messages. -/
theorem flow_answersWithin (answer : Message → σ → Envelope × σ) (server : σ)
    {asked messages : List Message} (h : asked <+: messages) :
    Segment.flow (answersWithin answer server messages (Message.flow asked).length) =
      ((replies answer server asked).map Envelope.item).flatMap Item.stream := by
  rw [answersWithin, Message.arrived_of_isPrefix h, Envelope.flow_segments]

section
variable {srv : Server σ} {limit : Nat} {prepare : σ → σ} {answer : Message → σ → Envelope × σ}
  {messages : List Message}

/-- **The child of a server that answers responds.** -/
theorem Child.program_responds (hsrv : srv.Answers limit prepare answer) {config : Config}
    (hlimit : max config.maxMessageSize 1 = limit)
    (hmessages : ∀ m ∈ messages, Frame.Encodable m limit ∧ (srv.handlers.get? m.name).isSome)
    (keep : KeepList) (server : σ) (inherited : List Int) (far : Int) :
    (Child.program srv config keep server).Responds inherited far (Message.flow messages)
      (answersWithin answer (prepare (srv.afterFork server)) messages) where
  view_eq := by
    intro segments hplain hincoming
    obtain ⟨unwritten, hunwritten⟩ := hincoming
    let process := Child.process (Child.sweep config keep far inherited) far
      (segments.map .arrive)
    have hawaits : Loop.Awaits srv limit unwritten messages
        (Loop.start (srv.afterFork server) config process) (Segment.flow segments) := by
      refine ⟨⟨⟨rfl, rfl, rfl, rfl, rfl, nofun, segments, rfl, hplain, rfl⟩, rfl, rfl⟩,
        ⟨hlimit, fun item hmem => ?_, ⟨[], rfl, rfl, hunwritten⟩, nofun, nofun⟩, hmessages⟩
      obtain ⟨m, hm, rfl⟩ := List.mem_map.1 hmem
      exact Envelope.item_fits (e := ⟨m, none⟩) (hmessages m hm).1
    obtain ⟨w', hserve, hanswered⟩ := Loop.serve_answers hsrv hawaits
    have hview : (Child.program srv config keep server).view inherited far
        (segments.map .arrive) =
        Child.view (srv.name (srv.afterFork server)) (.error .waiting) w' := by
      simp only [Child.program]
      rw [hserve]
    rw [hview]
    exact ⟨hanswered.sent_eq, rfl, hanswered.open_eq⟩
  grows := by
    intro n n' h
    exact (replies_isPrefix _ _ (Message.arrived_isPrefix h _)).map _
  plain := by
    intro n s hmem
    obtain ⟨e, -, rfl⟩ := List.mem_map.1 hmem
    exact e.plain_segment

/-! ## The channel -/

/-- How a parent stands that has asked `asked` and has received `received`: the other answers to
what was asked are held, in the line or still to come, in order. -/
inductive Corresponds (line : Line) (limit : Nat) (answer : Message → σ → Envelope × σ) (server : σ)
    (messages asked : List Message) (received : List Envelope) (c : Channel) (x : Relay) : Prop
  | intro {waiting : List Envelope} {s : Stream} (hasked : asked <+: messages)
      (hretries : c.interruptible = false)
      (hdue : x.Due line (Message.flow messages) (answersWithin answer server messages)
        (Message.flow asked) s)
      (hholds : Channel.Holds limit c { queue := s } [] (waiting.map Envelope.item))
      (hreplies : received ++ waiting = replies answer server asked)

namespace Corresponds

variable {line : Line} {server : σ} {asked : List Message} {received : List Envelope} {c : Channel}
  {x : Relay} {m : Message}

/-- Who has received as many answers as were asked for has received the answers. -/
theorem received_eq (h : Corresponds line limit answer server messages asked received c x)
    (hlength : received.length = asked.length) : received = replies answer server asked := by
  obtain @⟨waiting, -, -, -, -, -, hreplies⟩ := h
  have hall := congrArg List.length hreplies
  rw [List.length_append, length_replies] at hall
  obtain rfl := List.length_eq_zero_iff.1 (show waiting.length = 0 by omega)
  rw [← hreplies, List.append_nil]

/-- A message that is sent is answered behind all others. -/
theorem send (h : Corresponds line limit answer server messages asked received c x)
    (hasked : asked ++ [m] <+: messages) (hm : Frame.Encodable m limit)
    (hanswers : ∀ server, Frame.Encodable (answer m server).1.message limit) :
    ∃ x', c.send (Relay.transport line) m x = (.ok (), x') ∧
      Corresponds line limit answer server messages (asked ++ [m]) received c x' := by
  obtain @⟨waiting, s, -, hretries, ⟨taken, htalks, hdue⟩, hholds, hreplies⟩ := h
  have hencode : Frame.encodeMessage m false c.limit = .ok m.item.octets := by
    rw [hholds.limit_eq]
    exact Frame.encodeMessage_eq_ok.2 ⟨hm, rfl⟩
  have hflow : Message.flow (asked ++ [m]) = Message.flow asked ++ m.item.stream := by
    rw [Message.flow_append, Message.flow_cons, Message.flow_nil, List.append_nil]
  have hincoming : Message.flow asked ++ m.item.stream <+: Message.flow messages := by
    rw [← hflow]
    obtain ⟨rest, rfl⟩ := hasked
    exact ⟨Message.flow rest, (Message.flow_append ..).symm⟩
  obtain ⟨x', hwrite, htalks'⟩ :=
    Relay.write_of_talks (Message.descriptors_flow messages) htalks hincoming
  let e := (answer m (leaves answer server asked)).1
  have hlast : replies answer server (asked ++ [m]) = replies answer server asked ++ [e] :=
    replies_append ..
  have he : Frame.Encodable e.message limit := hanswers _
  refine ⟨x', ?_, ?_⟩
  · simp only [Channel.send, hencode]
    exact hwrite
  · rw [← Item.stream, ← hflow] at htalks'
    refine @Corresponds.intro _ _ _ _ _ _ _ _ _ _ (waiting ++ [e]) (s ++ e.item.stream) hasked
      hretries ⟨taken, htalks', ?_⟩ ?_ ?_
    · rw [flow_answersWithin answer server (List.IsPrefix.trans (List.prefix_append _ _) hasked)]
        at hdue
      rw [flow_answersWithin answer server hasked, hlast, List.map_append, List.flatMap_append,
        ← hdue, List.append_assoc]
      exact congrArg _ (congrArg _ (List.append_nil _).symm)
    · rw [List.map_append]
      exact hholds.push (Envelope.item_fits he)
    · rw [hlast, ← hreplies, List.append_assoc]

/-- **Where an answer is outstanding, the next one is received.** -/
theorem receive (h : Corresponds line limit answer server messages asked received c x)
    (hlt : received.length < asked.length) :
    ∃ e c' x', c.receive (Relay.transport line) x = (.item e, c', x') ∧
      Corresponds line limit answer server messages asked (received ++ [e]) c' x' := by
  obtain @⟨waiting, s, hasked, hretries, hdue, hholds, hreplies⟩ := h
  have hobtains := Channel.nextFrame_obtains
    (Relay.carries_due line (answersWithin answer server messages) (Message.flow asked)
      (Message.descriptors_flow messages)) (fun _ => hretries) hdue hholds
  have hinterruptible := Channel.interruptible_nextFrameWithin (Relay.transport line)
    ((Relay.transport line).inflow x + 2) c x
  rw [Channel.receive_eq]
  change Channel.Obtains _ _ _ _ (Channel.nextFrameWithin _ _ _ _) at hobtains
  change ∃ e c' x', ((Channel.nextFrameWithin _ _ c x).1.toEnvelope,
    (Channel.nextFrameWithin _ _ c x).2) = _ ∧ _
  generalize Channel.nextFrameWithin (Relay.transport line)
    ((Relay.transport line).inflow x + 2) c x = out at hobtains hinterruptible ⊢
  generalize hitems : waiting.map Envelope.item = items at hobtains
  cases hobtains with
  | @next item rest c' x' s' hdue' hholds' =>
    obtain ⟨e, waiting, rfl, rfl, rfl⟩ := List.map_eq_cons_iff.1 hitems
    refine ⟨e, c', x', rfl, .intro hasked (hinterruptible.trans hretries) hdue' hholds' ?_⟩
    rw [List.append_assoc]
    exact hreplies
  | waits hdue' hholds' hnone =>
    -- there is an answer that was not received
    rcases hholds'.settled with ⟨_, _, _, -, -, hsome⟩ | ⟨-, -, hsome⟩ | ⟨-, rfl | hleft⟩
    · rw [hnone] at hsome
      cases hsome
    · rw [hnone] at hsome
      cases hsome
    · obtain rfl := List.map_eq_nil_iff.1 hitems
      have hall := congrArg List.length hreplies
      rw [List.append_nil, length_replies] at hall
      omega
    · exact absurd rfl hleft

end Corresponds

end

/-! ## The supervisor -/

namespace Supervisor

section
variable {η : Type} (H : Host η)

/-- Sends a message. -/
def sendOn (m : Message) : Act η σ (Except SupervisorError (Except ChannelError Unit)) :=
  onChannel H fun T c h =>
    let (r, h) := c.send T m h
    (r, c, h)

/-- Receives a message. -/
def receiveOn : Act η σ (Except SupervisorError (Reception Envelope)) :=
  onChannel H fun T c h => c.receive T h

/-- Sends some messages, and then receives as many. -/
def exchange (messages : List Message) :
    Act η σ (List (Except SupervisorError (Except ChannelError Unit)) ×
      List (Except SupervisorError (Reception Envelope))) := do
  let sent ← messages.mapM (sendOn H)
  let received ← messages.mapM fun _ => receiveOn H
  pure (sent, received)

theorem onChannel_run {α : Type} (f : Transport η → Channel → η → α × Channel × η) {pid : Pid}
    {line : Line} {c c' : Channel} {reaped : Bool} {s : Scene η σ} {a : α} {h : η}
    (hlife : s.supervisor.life = .started pid line c reaped)
    (hf : f (H.transport line) c s.host = (a, c', h)) :
    onChannel H f s = (.ok a,
      { s with
        supervisor := { s.supervisor with life := .started pid line c' reaped }
        host := h }) := by
  rw [onChannel, bind_run, get_run, hlife]
  simp only [bind_run, onHost_run, hf, enter_run, pure_run]

/-- One act for each of some values, and the acts for the others. -/
theorem mapM_cons_run {α β : Type} (f : α → Act η σ β) (a : α) (as : List α) (s : Scene η σ) :
    ((a :: as).mapM f) s =
      ((f a s).1 :: (as.mapM f (f a s).2).1, (as.mapM f (f a s).2).2) := by
  rw [List.mapM_cons]
  rfl

end

variable {limit : Nat} {answer : Message → σ → Envelope × σ} {server : σ} {line : Line}
  {messages asked rest : List Message} {received : List Envelope} {m : Message}
  {s : Scene Relay σ}

/-- A supervisor that has asked `asked` on its channel, and has received `received`. -/
inductive Converses (line : Line) (limit : Nat) (answer : Message → σ → Envelope × σ) (server : σ)
    (messages asked : List Message) (received : List Envelope) (s : Scene Relay σ) : Prop
  | intro {pid : Pid} {c : Channel} {reaped : Bool}
      (hlife : s.supervisor.life = .started pid line c reaped)
      (h : Corresponds line limit answer server messages asked received c s.host)

/-- A message that can be sent, and whose answer can. -/
def Askable (limit : Nat) (answer : Message → σ → Envelope × σ) (m : Message) : Prop :=
  Frame.Encodable m limit ∧ ∀ server, Frame.Encodable (answer m server).1.message limit

theorem sendOn_run (h : Converses line limit answer server messages asked received s)
    (hasked : asked ++ [m] <+: messages) (hm : Askable limit answer m) :
    ∃ s', sendOn Relay.host m s = (.ok (.ok ()), s') ∧
      Converses line limit answer server messages (asked ++ [m]) received s' := by
  obtain ⟨hlife, hcorresponds⟩ := h
  obtain ⟨x', hsend, h'⟩ := hcorresponds.send hasked hm.1 hm.2
  refine ⟨_, onChannel_run Relay.host _ hlife (by simp only [Relay.host, hsend]), .intro rfl h'⟩

theorem receiveOn_run (h : Converses line limit answer server messages asked received s)
    (hlt : received.length < asked.length) :
    ∃ e s', receiveOn Relay.host s = (.ok (.item e), s') ∧
      Converses line limit answer server messages asked (received ++ [e]) s' := by
  obtain ⟨hlife, hcorresponds⟩ := h
  obtain ⟨e, c', x', hreceive, h'⟩ := hcorresponds.receive hlt
  exact ⟨e, _, onChannel_run Relay.host _ hlife hreceive, .intro rfl h'⟩

/-- A request sends and receives. -/
theorem request_run (h : Converses line limit answer server messages asked received s)
    (hasked : asked ++ [m] <+: messages) (hm : Askable limit answer m)
    (hlength : received.length = asked.length) :
    ∃ e s', request Relay.host m s = (.ok (some e), s') ∧
      Converses line limit answer server messages (asked ++ [m]) (received ++ [e]) s' := by
  obtain @⟨pid, c, reaped, hlife, hcorresponds⟩ := h
  obtain ⟨x₁, hsend, h₁⟩ := hcorresponds.send hasked hm.1 hm.2
  have hlt : received.length < (asked ++ [m]).length := by
    rw [List.length_append, hlength]
    exact Nat.lt_succ_self _
  obtain ⟨e, c', x', hreceive, h'⟩ := h₁.receive hlt
  have hask : ask m (Relay.host.transport line) c s.host = (.item e, c', x') := by
    have hsend' : c.send (Relay.host.transport line) m s.host = (.ok (), x₁) := hsend
    rw [ask, hsend']
    exact hreceive
  have htouched : (touch Relay.host s).2.supervisor.life = .started pid line c reaped := hlife
  have hrun := onChannel_run Relay.host (ask m) htouched hask
  refine ⟨e, _, ?_, .intro (s := { (touch Relay.host s).2 with
    supervisor := { (touch Relay.host s).2.supervisor with life := .started pid line c' reaped }
    host := x' }) rfl h'⟩
  rw [request, bind_run, bind_run, get_run, bind_run, hrun]
  rfl

/-! ### One after the other -/

/-- Requests are answered one by one. -/
theorem requests_run (hknown : ∀ m ∈ messages, Askable limit answer m)
    (h : Converses line limit answer server messages asked received s)
    (hlength : received.length = asked.length) (hall : asked ++ rest = messages) :
    ∃ es : List Envelope, (rest.mapM (request Relay.host) s).1 = es.map (fun e => .ok (some e)) ∧
      received ++ es = replies answer server messages := by
  induction rest generalizing asked received s with
  | nil =>
    rw [List.append_nil] at hall
    subst hall
    obtain ⟨-, h⟩ := h
    refine ⟨[], rfl, ?_⟩
    rw [List.append_nil, h.received_eq hlength]
  | cons m rest ih =>
    have hm : m ∈ messages := hall ▸ List.mem_append_right _ List.mem_cons_self
    rw [List.append_cons] at hall
    obtain ⟨e, s', hrun, h'⟩ := request_run h ⟨rest, hall⟩ (hknown m hm) hlength
    obtain ⟨es, hes, hreplies⟩ := ih h'
      (by rw [List.length_append, List.length_append, hlength]; rfl) hall
    refine ⟨e :: es, ?_, ?_⟩
    · rw [mapM_cons_run, hrun, List.map_cons, hes]
    · rw [← hreplies, List.append_assoc]
      rfl

/-! ### All at first -/

theorem sends_run (hknown : ∀ m ∈ messages, Askable limit answer m)
    (h : Converses line limit answer server messages asked received s)
    (hall : asked ++ rest = messages) :
    ∃ s', rest.mapM (sendOn Relay.host) s = (rest.map (fun _ => .ok (.ok ())), s') ∧
      Converses line limit answer server messages messages received s' := by
  induction rest generalizing asked s with
  | nil =>
    rw [List.append_nil] at hall
    subst hall
    exact ⟨s, rfl, h⟩
  | cons m rest ih =>
    have hm : m ∈ messages := hall ▸ List.mem_append_right _ List.mem_cons_self
    rw [List.append_cons] at hall
    obtain ⟨s₁, hrun, h₁⟩ := sendOn_run h ⟨rest, hall⟩ (hknown m hm)
    obtain ⟨s', hrest, h'⟩ := ih h₁ hall
    refine ⟨s', ?_, h'⟩
    rw [mapM_cons_run, hrun, hrest]
    rfl

theorem receives_run (h : Converses line limit answer server messages messages received s)
    (hlength : received.length + rest.length = messages.length) :
    ∃ es : List Envelope, (rest.mapM (fun _ => receiveOn Relay.host) s).1 =
        es.map (fun e => .ok (.item e)) ∧
      received ++ es = replies answer server messages := by
  induction rest generalizing received s with
  | nil =>
    obtain ⟨-, h⟩ := h
    refine ⟨[], rfl, ?_⟩
    rw [List.append_nil, h.received_eq hlength]
  | cons m rest ih =>
    rw [List.length_cons] at hlength
    obtain ⟨e, s', hrun, h'⟩ := receiveOn_run h (by omega)
    obtain ⟨es, hes, hreplies⟩ := ih h' (by rw [List.length_append, List.length_singleton]; omega)
    refine ⟨e :: es, ?_, ?_⟩
    · rw [mapM_cons_run, hrun, List.map_cons, hes]
    · rw [← hreplies, List.append_assoc]
      rfl

/-! ### The start -/

/-- A supervisor that has started a server which answers can ask it. -/
theorem start_converses {prepare : σ → σ} {keep : KeepList} {state : σ}
    (hlife : s.supervisor.life = .notStarted) (hfresh : s.host.Fresh)
    (hbefore : s.supervisor.server.beforeFork {} s.supervisor.state = (.ok keep, state))
    (hsrv : s.supervisor.server.Answers (max s.supervisor.config.maxMessageSize 1) prepare answer)
    (hmessages : ∀ m ∈ messages,
      Frame.Encodable m (max s.supervisor.config.maxMessageSize 1) ∧
        (s.supervisor.server.handlers.get? m.name).isSome) :
    ∃ line s', start Relay.host s = (.ok (), s') ∧
      Converses line (max s.supervisor.config.maxMessageSize 1) answer
        (prepare (s.supervisor.server.afterFork state)) messages [] [] s' := by
  obtain ⟨line, x, hopen, hfresh'⟩ := Relay.openLine_of_fresh hfresh
  obtain ⟨x', hfork, htalks⟩ := Relay.talks_fork line hfresh'
    (Child.program_responds hsrv rfl hmessages keep state _ line.far)
  refine ⟨line, ?_⟩
  rw [start, bind_run, get_run, hlife]
  simp only [bind_run, announce_run, onHost_run, hopen, prepareFork_run, hbefore, forkOn, get_run,
    hfork, enter_run, touch_run, pure_run]
  refine ⟨_, rfl, .intro rfl (.intro (s := []) List.nil_prefix rfl ⟨[], htalks, ?_⟩ ?_ rfl)⟩
  · exact (flow_answersWithin answer _ List.nil_prefix).symm
  · exact ⟨rfl, List.forall_mem_nil _, ⟨[], rfl, rfl, rfl⟩, fun _ => rfl,
      fun h => absurd h Bool.false_ne_true⟩

/-! ## Requests and replies -/

/-- **Each reply belongs to its request.** A server that answers is started and is sent some
messages that it knows; whether the parent makes a request of each, or sends all of them first and
receives then, it receives the answer to the first message first, the answer to the second one
next, and so on, each given by the server that the messages before have left. It does not matter
how the processes take turns, nor where the reads and writes of either are cut or interrupted. -/
theorem replies_in_order {prepare : σ → σ} {keep : KeepList} {state : σ} {s : Scene Relay σ}
    (hlife : s.supervisor.life = .notStarted) (hfresh : s.host.Fresh)
    (hbefore : s.supervisor.server.beforeFork {} s.supervisor.state = (.ok keep, state))
    (hsrv : s.supervisor.server.Answers (max s.supervisor.config.maxMessageSize 1) prepare answer)
    (hmessages : ∀ m ∈ messages, Frame.Encodable m s.supervisor.config.maxMessageSize ∧
      (s.supervisor.server.handlers.get? m.name).isSome) :
    let first := prepare (s.supervisor.server.afterFork state)
    let expected := replies answer first messages
    ∃ s', start Relay.host s = (.ok (), s') ∧
      (messages.mapM (request Relay.host) s').1 = expected.map (fun e => .ok (some e)) ∧
      (exchange Relay.host messages s').1 =
        (messages.map fun _ => .ok (.ok ()), expected.map fun e => .ok (.item e)) ∧
      (∀ n m, messages[n]? = some m →
        expected[n]? = some (answer m (leaves answer first (messages.take n))).1) ∧
      ((∀ m ∈ messages, ∀ server, (answer m server).1 = ⟨m, none⟩) →
        expected = messages.map fun m => ⟨m, none⟩) := by
  intro first expected
  have hadmitted : ∀ m ∈ messages,
      Frame.Encodable m (max s.supervisor.config.maxMessageSize 1) ∧
        (s.supervisor.server.handlers.get? m.name).isSome := fun m hm =>
    ⟨⟨(hmessages m hm).1.named, (hmessages m hm).1.countable,
      Nat.le_trans (hmessages m hm).1.admitted (Nat.le_max_left ..),
      (hmessages m hm).1.measurable⟩, (hmessages m hm).2⟩
  have hknown : ∀ m ∈ messages,
      Askable (max s.supervisor.config.maxMessageSize 1) answer m := by
    intro m hm
    obtain ⟨hencodable, hget⟩ := hadmitted m hm
    obtain ⟨handler, hget⟩ := Option.isSome_iff_exists.1 hget
    exact ⟨hencodable, hsrv.admits m handler hencodable hget⟩
  obtain ⟨line, s', hstart, h⟩ := start_converses hlife hfresh hbefore hsrv hadmitted
  refine ⟨s', hstart, ?_, ?_, fun n m => getElem?_replies answer first, fun hecho => ?_⟩
  · obtain ⟨es, hrun, hes⟩ := requests_run hknown h rfl rfl
    rw [hrun, show es = expected from hes]
  · obtain ⟨s₁, hsent, h₁⟩ := sends_run hknown h rfl
    obtain ⟨es, hreceived, hes⟩ := receives_run h₁ (Nat.zero_add messages.length)
    rw [exchange, bind_run, hsent, bind_run]
    show (_, (messages.mapM (fun _ => receiveOn Relay.host) s₁).1) = _
    rw [hreceived, show es = expected from hes]
  · exact replies_of_echo hecho first

/-! ### A server that echoes and counts -/

/-- Counts the message, and sends one in reply. A signal that is put off is left marked. -/
def replying (reply : Nat → List Octets → Message) : Handler Nat := fun args => do
  Code.modifySignals fun s => ((), s.bind .usr1 .deferred)
  Code.raise .usr1
  let w ← get
  Code.modifyServer (· + 1)
  Code.reply (reply w.server args)

/-- A server that echoes what it is sent, and says on request how much that was. Its setup and what
its loop calls for the signal are left open. -/
def tally (setup tick : Code Nat Unit) : Server Nat where
  name _ := "tally"
  handlers := .ofList [("echo", replying fun _ args => ⟨"echo", args⟩),
    ("count", replying fun n _ => ⟨"count", [[UInt8.ofNat n]]⟩)]
  bindSignals _ t := t.set .usr1 (.callback fun _ => tick)
  setup := setup

/-- What its handlers answer. -/
def tallied (m : Message) (n : Nat) : Envelope × Nat :=
  (⟨if m.name = "count" then ⟨"count", [[UInt8.ofNat n]]⟩ else m, none⟩, n + 1)

/-- A running process marks a signal that it puts off. -/
theorem raise_of_deferred (signal : Signal) {w : World σ} (hrun : w.process.status = .running)
    (hbound : w.process.signals.dispositions signal = .deferred) :
    Code.raise signal w = .ok () { w with process := { w.process with
      signals := { w.process.signals with
        pending := SignalState.mark w.process.signals.pending signal true } } } := by
  have hdeliver : (w.process.deliver signal).2 = { w.process with
      signals := { w.process.signals with
        pending := SignalState.mark w.process.signals.pending signal true } } := by
    simp only [Process.deliver, hrun, Process.act, SignalState.deliver, hbound, Process.shutRead,
      reduceCtorEq, if_false]
  simp only [Code.raise, Code.disturb, hdeliver, Process.resume, hrun, if_true]

theorem replying_run (reply : Nat → List Octets → Message) (args : List Octets) {w : World Nat}
    {s : Stream} (h : w.AtRest s)
    (hm : Frame.Encodable (reply w.server args) w.context.channel.limit) :
    ∃ w', replying reply args w = .ok () w' ∧
      w.Writes w' (w.server + 1) [(⟨reply w.server args, none⟩ : Envelope).segment] := by
  let bound : World Nat := { w with process := { w.process with
    signals := w.process.signals.bind .usr1 .deferred } }
  have hraise := raise_of_deferred .usr1 (w := bound) h.still.running rfl
  have hreply := Code.reply_apply (m := reply w.server args) (w := { bound with
    server := w.server + 1
    process := { bound.process with signals := { bound.process.signals with
      pending := SignalState.mark bound.process.signals.pending .usr1 true } } })
    h.still.peer_there hm
  refine ⟨_, Eq.trans ?_ hreply, ⟨rfl, rfl, rfl, rfl, rfl, rfl, rfl, rfl, rfl⟩⟩
  show (Code.raise .usr1 >>= fun _ => do
    let w ← get
    Code.modifyServer (· + 1)
    Code.reply (reply w.server args) : Code Nat Unit) bound = _
  rw [Code.bind_apply, hraise]
  rfl

theorem encodable_count (n : Nat) : Frame.Encodable ⟨"count", [[UInt8.ofNat n]]⟩ 64 := by
  have hsize : Frame.bodySize ⟨"count", [[UInt8.ofNat n]]⟩ = 16 := rfl
  refine ⟨(by decide : "count" ≠ ""), (by decide : 2 ≤ Frame.maxElements), ?_, ?_⟩
  · rw [hsize]
    decide
  · rw [hsize]
    decide

/-- Its handlers reply as they are said to, whatever else it does. -/
theorem tally_replies (setup tick : Code Nat Unit) : (tally setup tick).Replies 64 tallied := by
  have htable : (tally setup tick).handlers =
      (Handlers.on {} "echo" (replying fun _ args => ⟨"echo", args⟩)).on "count"
        (replying fun n _ => ⟨"count", [[UInt8.ofNat n]]⟩) := rfl
  have hhandles {m : Message} {handler : Handler Nat} (hm : Frame.Encodable m 64)
      (hget : (tally setup tick).handlers.get? m.name = some handler) :
      (∀ n, Frame.Encodable (tallied m n).1.message 64) ∧
        ∃ reply, handler = replying reply ∧ ∀ n, reply n m.args = (tallied m n).1.message := by
    obtain ⟨name, args⟩ := m
    rw [htable, Handlers.get?_on, Handlers.get?_on] at hget
    split at hget
    · next hname =>
      cases hget
      subst hname
      exact ⟨encodable_count, _, rfl, fun _ => rfl⟩
    · split at hget
      · next hecho =>
        cases hget
        subst hecho
        exact ⟨fun _ => hm, _, rfl, fun _ => rfl⟩
      · cases hget
  refine ⟨fun m handler hm hget => (hhandles hm hget).1,
    fun m handler hm hget w s h hlimit _ => ?_⟩
  obtain ⟨hadmits, reply, rfl, hreply⟩ := hhandles hm hget
  have hrun := replying_run reply m.args h
    (by rw [hreply, hlimit]; exact hadmits _)
  rw [hreply] at hrun
  exact hrun

/-- So it answers if it does nothing else. -/
theorem tally_answers : (tally (pure ()) (pure ())).Answers 64 id tallied where
  toReplies := tally_replies _ _
  setup w _ _ _ := ⟨w, rfl, .refl w⟩
  quiet _ termination :=
    (SignalTable.quiet_ofTermination termination 64).set fun w _ _ _ => ⟨w, rfl, .refl w⟩

/-- A supervisor of it, on a line that takes one write apart, brings three octets ahead of the
next, and interrupts the first read. -/
def tallying : Scene Relay Nat where
  supervisor := .ofServer (tally (pure ()) (pure ())) 0 { maxMessageSize := 64 } Instant.origin
  host :=
    { machine := {}
      turns := [⟨[], .take 4⟩, ⟨[3], .take 100⟩, ⟨[1], .interrupt ⟨.plain .interrupted, rfl⟩⟩,
        ⟨[], .take 0⟩] }

theorem replies_in_order_tally :
    let messages : List Message := [⟨"echo", [[7], []]⟩, ⟨"count", []⟩]
    let expected : List Envelope := [⟨⟨"echo", [[7], []]⟩, none⟩, ⟨⟨"count", [[1]]⟩, none⟩]
    ∃ s', start Relay.host tallying = (.ok (), s') ∧
      (messages.mapM (request Relay.host) s').1 = expected.map (fun e => .ok (some e)) ∧
      (exchange Relay.host messages s').1 =
        (messages.map fun _ => .ok (.ok ()), expected.map fun e => .ok (.item e)) := by
  intro messages expected
  have hmessages : ∀ m ∈ messages, Frame.Encodable m 64 ∧
      ((tally (pure ()) (pure ())).handlers.get? m.name).isSome := by
    intro m hm
    rcases List.mem_cons.1 hm with rfl | hm
    · exact ⟨⟨by decide, by decide, by decide, by decide⟩, by decide⟩
    · rw [List.mem_singleton.1 hm]
      exact ⟨⟨by decide, by decide, by decide, by decide⟩, by decide⟩
  obtain ⟨s', hstart, hrequests, hexchange, -, -⟩ :=
    replies_in_order (s := tallying) rfl ⟨rfl, rfl, rfl, rfl⟩ rfl tally_answers hmessages
  have hexpected : replies tallied 0 messages = expected := by decide
  exact ⟨s', hstart, hexpected ▸ hrequests, hexpected ▸ hexchange⟩

/-! ### Whatever else it does -/

/-- What the parent receives that asks it twice for its count. -/
def counts (setup tick : Code Nat Unit) : List (Option (Option Envelope)) :=
  let messages : List Message := [⟨"count", []⟩, ⟨"count", []⟩]
  let s : Scene Relay Nat :=
    { supervisor := .ofServer (tally setup tick) 0 { maxMessageSize := 64 } Instant.origin
      host := { machine := {} } }
  (messages.mapM (request Relay.host) (start Relay.host s).2).1.map Except.toOption

/-- **Whatever else a server sends is received in place of a reply.** What its handlers answer is
the same each time, but a greeting comes ahead of the first answer, a message that is sent for the
signal comes ahead of the second one, and a callback that counts as well changes the second one. -/
theorem replies_displaced :
    (∀ setup tick, (tally setup tick).Replies 64 tallied) ∧
    replies tallied 0 [⟨"count", []⟩, ⟨"count", []⟩] =
      [⟨⟨"count", [[0]]⟩, none⟩, ⟨⟨"count", [[1]]⟩, none⟩] ∧
    counts (Code.reply ⟨"greeting", []⟩) (pure ()) =
      [some (some ⟨⟨"greeting", []⟩, none⟩), some (some ⟨⟨"count", [[0]]⟩, none⟩)] ∧
    counts (pure ()) (Code.reply ⟨"tick", []⟩) =
      [some (some ⟨⟨"count", [[0]]⟩, none⟩), some (some ⟨⟨"tick", []⟩, none⟩)] ∧
    counts (pure ()) (Code.modifyServer (· + 1)) =
      [some (some ⟨⟨"count", [[0]]⟩, none⟩), some (some ⟨⟨"count", [[2]]⟩, none⟩)] :=
  ⟨tally_replies, by decide, by decide +kernel, by decide +kernel, by decide +kernel⟩

end Supervisor

end Overseer
