import Overseer.Proofs.Channel.Exactness
import Overseer.Proofs.Channel.Place
import Overseer.Proofs.Supervisor.Correspondence
import Overseer.Server.Plain

/-!
# A request to a child that goes away

The end of a line that a child holds can go away at any time. A request notices that when it writes
(`Transport.Loses`), or when it reads: the channel has met the end of the stream, or the reads bring
some more of it and then the end (`Channel.Abandoned`). What is ahead of the channel then, held by
it or still brought, decides the request, however the reads are cut.

If there is nothing ahead, then there is no reply, and the child is reported to be gone; so it is if
the request could not be written. If there is a frame ahead, then the request has that: a message is
the reply, and anything else is a failure of the channel, at which nothing is announced. So is a
part of a frame: it is never taken for a reply (`departure_reported`).

So a child that goes away in the middle of its reply is not reported to be gone, and neither is one
that has sent a scalar and goes away without a reply (`departure_unreported`).
-/

namespace Overseer

/-! ## How a transport loses its peer -/

/-- The peer is gone before all of some octets are written: the transport takes a front part of
them, if any, and then nothing, or it says that the peer is gone. Interrupted writes come in
between. -/
inductive Transport.Loses {τ : Type} (T : Transport τ) : τ → Octets → Prop
  | refused {t t' : τ} {xs : Octets} (hne : xs ≠ []) (hwrite : T.write t xs none = (.ok 0, t')) :
      T.Loses t xs
  | gone {t t' : τ} {xs : Octets} {e : IoError} (hne : xs ≠ []) (he : e.kind ∈ WriteCall.peerGone)
      (hwrite : T.write t xs none = (.error e, t')) : T.Loses t xs
  | accepted {t t' : τ} {xs : Octets} {n : Nat} (hne : xs ≠ []) (hn : n ≠ 0)
      (hwrite : T.write t xs none = (.ok n, t')) (hrest : T.Loses t' (xs.drop n)) : T.Loses t xs
  | interrupted {t t' : τ} {xs : Octets} {e : IoError} (hne : xs ≠ []) (he : e.kind = .interrupted)
      (hwrite : T.write t xs none = (.error e, t')) (hrest : T.Loses t' xs) : T.Loses t xs

/-- A failure that says that the peer is gone is taken for that, and not tried again. -/
theorem WriteCall.closed_of_peerGone {e : IoError} (he : e.kind ∈ peerGone) :
    e.kind ≠ .interrupted ∧ ChannelError.ofWrite e = .closed := by
  rw [ChannelError.ofWrite]
  generalize e.kind = kind at he
  cases kind <;> simp [peerGone] at he ⊢

namespace Channel

variable {τ : Type} {T : Transport τ} {c : Channel} {t : τ} {s : Stream}

/-- A peer that is lost is a closed channel. -/
theorem writes_of_loses {xs : Octets} (h : T.Loses t xs) :
    ∃ t', Writes T xs none t (.error .closed, t') := by
  induction h with
  | refused hne hwrite => exact ⟨_, .refused hne hwrite⟩
  | @gone t t' xs e hne he hwrite =>
    obtain ⟨hkind, hclosed⟩ := WriteCall.closed_of_peerGone he
    refine ⟨t', ?_⟩
    rw [← hclosed]
    exact .failed hne hkind hwrite
  | accepted hne hn hwrite _ ih =>
    obtain ⟨t', hrest⟩ := ih
    exact ⟨t', .accepted hne hn hwrite hrest⟩
  | interrupted hne he hwrite _ ih =>
    obtain ⟨t', hrest⟩ := ih
    exact ⟨t', .interrupted hne he hwrite hrest⟩

/-- The peer of a channel is gone, and a stream comes in front of that: the channel has met the end,
or the reads bring the stream and then the end. -/
def Abandoned (T : Transport τ) (c : Channel) (t : τ) (s : Stream) : Prop :=
  c.ended = false ∧ T.Brings t s ∨ c.ended = true ∧ s = []

/-- The frame ahead of a channel, of what it holds and a stream that comes. A flagged frame has the
first descriptor, which is held or is attached to an octet up to the end of the frame. -/
inductive Ahead (c : Channel) (s : Stream) : Frame → Option Descriptor → Prop
  | plain {frame : Frame} {rest : Octets}
      (hdec : Frame.decode c.limit (c.buffer ++ s.octets) = .ok (some (frame, rest)))
      (hf : frame.flagged = false) : Ahead c s frame none
  | flagged {frame : Frame} {rest : Octets} {d : Descriptor} {ds : List Descriptor}
      (hdec : Frame.decode c.limit (c.buffer ++ s.octets) = .ok (some (frame, rest)))
      (hf : frame.flagged = true)
      (hd : c.descriptors ++ Stream.descriptors (s.take (s.length - rest.length)) = d :: ds) :
      Ahead c s frame (some d)

/-- Why there is no whole frame ahead of a channel that has something ahead. -/
inductive Barred (c : Channel) (s : Stream) : ChannelError → Prop
  /-- No frame can start there. -/
  | refused {e : ChannelError} (hdec : Frame.decode c.limit (c.buffer ++ s.octets) = .error e) :
      Barred c s e
  /-- There is a flagged frame, and no descriptor at all. -/
  | missing {frame : Frame} {rest : Octets}
      (hdec : Frame.decode c.limit (c.buffer ++ s.octets) = .ok (some (frame, rest)))
      (hf : frame.flagged = true) (hheld : c.descriptors = []) (hs : s.descriptors = []) :
      Barred c s (.violation .missingDescriptor)
  /-- There is a part of a frame. -/
  | cutShort (hne : c.buffer ++ s.octets ≠ [])
      (hdec : Frame.decode c.limit (c.buffer ++ s.octets) = .ok none) :
      Barred c s (.violation (.cutShort (c.buffer ++ s.octets).length))

/-- What bars a frame is not that the channel is closed. -/
theorem Barred.ne_closed {e : ChannelError} (h : c.Barred s e) : e ≠ .closed := by
  rintro rfl
  cases h with
  | refused hdec =>
    obtain ⟨_, _, hlarge⟩ | ⟨_, hcause⟩ := Frame.cause_of_decode hdec
    · cases hlarge
    · cases hcause

/-! ## What a call finds whose peer is gone -/

/-- What a channel holds, as a stream. An octet in front of the buffer has the descriptors. -/
def held (c : Channel) : Stream := (0, c.descriptors) :: c.buffer.map fun x => (x, [])

/-- The place in that stream where the channel stands. -/
def heldPlace : Stream.Place := ⟨1, 0⟩

theorem octets_held (c : Channel) : c.held.octets = 0 :: c.buffer := by
  simp [held, Stream.octets, Function.comp_def]

theorem descriptors_held (c : Channel) : c.held.descriptors = c.descriptors := by
  simp [held, Stream.descriptors]

/-- What a channel stands in front of is what it holds, and what comes. -/
theorem octetsFrom_held (c : Channel) (s : Stream) :
    (c.held ++ s).octetsFrom heldPlace = c.buffer ++ s.octets := by
  rw [Stream.octetsFrom, Stream.octets_append, octets_held]
  rfl

theorem Abandoned.stands (h : c.Abandoned T t s) :
    Stands T.bringing (c.held ++ s) heldPlace c t := by
  refine .intro rfl ?_ ?_ (Nat.zero_le _) (descriptors_held c) ?_
  · exact Nat.succ_le_succ (Nat.zero_le _)
  · have hfrom := octetsFrom_held c []
    rwa [List.append_nil, Stream.octets_nil, List.append_nil] at hfrom
  · exact h

/-- Only a channel that reports interruptions comes to one. -/
theorem Fetches.interruptible_of_interrupted
    {out : Reception (Frame × Option Descriptor) × Channel × τ} (h : Fetches T c t out)
    (hout : out.1 = .failed .interrupted) : c.interruptible = true := by
  induction h with
  | settled h =>
    obtain rfl := hout
    cases completed_of_settled h
  | dry => cases hout
  | broken _ _ habsorb =>
    cases hout
    obtain ⟨-, cause, -, ⟨-, hreports, -⟩ | ⟨-, -, hio⟩⟩ := absorb_eq_some habsorb
    · exact hreports
    · cases hio
  | onward _ _ habsorb _ ih => exact interruptible_absorb habsorb ▸ ih hout

/-- What decides a call whose peer is gone. -/
inductive Faces (c : Channel) (s : Stream) : Reception (Frame × Option Descriptor) → Prop
  /-- There is nothing ahead. -/
  | nothing (hbuffer : c.buffer = []) (hs : s = []) : Faces c s .ended
  | frame {frame : Frame} {d : Option Descriptor} (h : Ahead c s frame d) :
      Faces c s (.item (frame, d))
  | barred {e : ChannelError} (h : Barred c s e) : Faces c s (.failed e)

section
variable {limit : Nat} {place : Stream.Place}
  {out : Reception (Frame × Option Descriptor) × Channel × τ}

/-- Where a stream has ended a call finds the end. -/
theorem Tells.of_empty (h : Tells T.bringing s place limit out) (hempty : s.octetsFrom place = []) :
    out.1 = .ended ∨ out.1 = .failed .interrupted := by
  have hnone : Frame.decode limit (s.octetsFrom place) = .ok none := by
    rw [hempty]
    rfl
  cases h with
  | next h =>
    cases h with
    | plain _ hdec | flagged _ hdec => cases hnone.symm.trans hdec
  | lacks h =>
    cases h with
    | malformed hdec | missing _ hdec => cases hnone.symm.trans hdec
    | closed => exact .inl rfl
    | cutShort hne => exact absurd hempty hne
  | interrupted => exact .inr rfl
  | broken _ _ hfails => exact hfails.elim
  | dry _ _ hwaits => exact hwaits.elim

/-- Where no frame can start a call fails with that. -/
theorem Tells.of_error (h : Tells T.bringing s place limit out) {e : ChannelError}
    (herror : Frame.decode limit (s.octetsFrom place) = .error e) :
    out.1 = .failed e ∨ out.1 = .failed .interrupted := by
  cases h with
  | next h =>
    cases h with
    | plain _ hdec | flagged _ hdec => cases herror.symm.trans hdec
  | lacks h =>
    cases h with
    | malformed hdec =>
      cases herror.symm.trans hdec
      exact .inl rfl
    | missing _ hdec | cutShort _ hdec => cases herror.symm.trans hdec
    | closed hempty =>
      rw [hempty] at herror
      cases herror
  | interrupted => exact .inr rfl
  | broken _ _ hfails => exact hfails.elim
  | dry _ _ hwaits => exact hwaits.elim

/-- Behind a part of a frame a call fails with that. -/
theorem Tells.of_part (h : Tells T.bringing s place limit out) (hne : s.octetsFrom place ≠ [])
    (hpart : Frame.decode limit (s.octetsFrom place) = .ok none) :
    out.1 = .failed (.violation (.cutShort (s.length - place.octets))) ∨
      out.1 = .failed .interrupted := by
  cases h with
  | next h =>
    cases h with
    | plain _ hdec | flagged _ hdec => cases hpart.symm.trans hdec
  | lacks h =>
    cases h with
    | malformed hdec | missing _ hdec => cases hpart.symm.trans hdec
    | closed hempty => exact absurd hempty hne
    | cutShort => exact .inl rfl
  | interrupted => exact .inr rfl
  | broken _ _ hfails => exact hfails.elim
  | dry _ _ hwaits => exact hwaits.elim

/-- Where there is a frame a call has that, unless the frame lacks its descriptor. -/
theorem Tells.of_frame (h : Tells T.bringing s place limit out) {frame : Frame} {rest : Octets}
    (hframe : Frame.decode limit (s.octetsFrom place) = .ok (some (frame, rest))) :
    (∃ d place', s.Next limit place frame d place' ∧ out.1 = .item (frame, d)) ∨
    (∃ n, n ≤ s.length ∧ rest = s.octets.drop n ∧ frame.flagged = true ∧
      (Stream.descriptors (s.take n)).length ≤ place.descriptors ∧
      out.1 = .failed (.violation .missingDescriptor)) ∨
    out.1 = .failed .interrupted := by
  cases h with
  | next h =>
    have hnext := h
    cases h with
    | plain _ hdec | flagged _ hdec =>
      cases hframe.symm.trans hdec
      exact .inl ⟨_, _, hnext, rfl⟩
  | lacks h =>
    cases h with
    | missing hn hdec hf hd =>
      cases hframe.symm.trans hdec
      exact .inr (.inl ⟨_, hn, rfl, hf, hd, rfl⟩)
    | malformed hdec | cutShort _ hdec => cases hframe.symm.trans hdec
    | closed hempty =>
      rw [hempty] at hframe
      cases hframe
  | interrupted => exact .inr (.inr rfl)
  | broken _ _ hfails => exact hfails.elim
  | dry _ _ hwaits => exact hwaits.elim

/-- The descriptors up to the end of a frame behind the place: those that are held, and those that
have come with it. -/
theorem descriptors_take_held (c : Channel) (s : Stream) {n : Nat} {frame : Frame}
    (hn : n ≤ (c.held ++ s).length)
    (hdec : Frame.decode limit ((c.held ++ s).octetsFrom heldPlace) =
      .ok (some (frame, (c.held ++ s).octets.drop n))) :
    Stream.descriptors ((c.held ++ s).take n) =
      c.descriptors ++ Stream.descriptors
        (s.take (s.length - ((c.held ++ s).octets.drop n).length)) := by
  have hone : 1 ≤ n := by
    obtain ⟨front, hfront, hsize⟩ := Frame.decode_consumes hdec
    have hlength := congrArg List.length hfront
    rw [Stream.octetsFrom, List.length_append, List.length_drop, List.length_drop] at hlength
    rw [Frame.headerSize] at hsize
    omega
  have hcut : n - c.held.length = s.length - ((c.held ++ s).octets.drop n).length := by
    rw [List.length_drop, Stream.length_octets]
    rw [List.length_append] at hn ⊢
    omega
  obtain ⟨n, rfl⟩ := Nat.exists_eq_add_of_le' hone
  rw [List.take_append, Stream.descriptors_append, hcut]
  congr 1
  simp [held, Stream.descriptors, ← List.map_take]

/-- The frame ahead of a channel is what a call comes to. -/
theorem Tells.of_ahead (h : Tells T.bringing (c.held ++ s) heldPlace c.limit out) {frame : Frame}
    {d : Option Descriptor} (hahead : c.Ahead s frame d) :
    out.1 = .item (frame, d) ∨ out.1 = .failed .interrupted := by
  cases hahead with
  | plain hdec hf =>
    rw [← octetsFrom_held] at hdec
    rcases h.of_frame hdec with ⟨_, _, hnext, hout⟩ | ⟨_, -, -, hf', -⟩ | hout
    · cases hnext with
      | plain => exact .inl hout
      | flagged _ _ hf' => cases hf.symm.trans hf'
    · cases hf.symm.trans hf'
    · exact .inr hout
  | @flagged rest d ds hdec hf hd =>
    rw [← octetsFrom_held] at hdec
    rcases h.of_frame hdec with ⟨_, _, hnext, hout⟩ | ⟨n, hn, rfl, -, hnone, -⟩ | hout
    · cases hnext with
      | plain _ _ hf' => cases hf.symm.trans hf'
      | flagged _ _ _ hfirst =>
        -- the first one up to the end of the frame is the first of all
        rw [Stream.descriptors_append, descriptors_held,
          ← List.take_append_drop (s.length - rest.length) s, Stream.descriptors_append,
          ← List.append_assoc, hd] at hfirst
        cases hfirst
        exact .inl hout
    · rw [descriptors_take_held c s hn hdec, hd] at hnone
      cases hnone
    · exact .inr hout

/-- Where a frame is barred a call fails with the reason. -/
theorem Tells.of_barred (h : Tells T.bringing (c.held ++ s) heldPlace c.limit out)
    {e : ChannelError} (hbarred : c.Barred s e) :
    out.1 = .failed e ∨ out.1 = .failed .interrupted := by
  cases hbarred with
  | refused hdec =>
    rw [← octetsFrom_held] at hdec
    exact h.of_error hdec
  | missing hdec hf hheld hs =>
    rw [← octetsFrom_held] at hdec
    rcases h.of_frame hdec with ⟨_, _, hnext, -⟩ | ⟨_, -, -, -, -, hout⟩ | hout
    · cases hnext with
      | plain _ _ hf' => cases hf.symm.trans hf'
      | flagged _ _ _ hfirst =>
        rw [Stream.descriptors_append, descriptors_held, hheld, hs] at hfirst
        cases hfirst
    · exact .inl hout
    · exact .inr hout
  | cutShort hne hdec =>
    have hlength : (c.held ++ s).length - heldPlace.octets = (c.buffer ++ s.octets).length := by
      rw [← octetsFrom_held, Stream.octetsFrom, List.length_drop, Stream.length_octets]
    rw [← octetsFrom_held] at hne hdec
    rw [← hlength]
    exact h.of_part hne hdec

/-- **What a call comes to whose peer is gone** is ahead of the channel, unless the call is
interrupted. -/
theorem Fetches.faces (h : Fetches T c t out) (hs : c.Abandoned T t s)
    {answer : Reception (Frame × Option Descriptor)} (hfaces : c.Faces s answer) :
    out.1 = answer ∨ c.interruptible = true ∧ out.1 = .failed .interrupted := by
  have htells := h.tells hs.stands
  have hdecided : out.1 = answer ∨ out.1 = .failed .interrupted := by
    cases hfaces with
    | nothing hbuffer hnil =>
      refine htells.of_empty ?_
      rw [octetsFrom_held, hbuffer, hnil]
      rfl
    | frame hahead => exact htells.of_ahead hahead
    | barred hbarred => exact htells.of_barred hbarred
  exact hdecided.imp_right fun hout => ⟨h.interruptible_of_interrupted hout, hout⟩

end

end Channel

/-! ## What a request makes of it -/

namespace Supervisor

variable {η σ : Type}

/-- What a request answers that has come to something on its channel. -/
def replied (pid : Pid) : Reception Envelope → Except SupervisorError (Option Envelope)
  | .item e => .ok (some e)
  | .waiting => .ok none
  | .ended | .failed .closed => .error (.exited pid)
  | .failed e => .error (.channel e)

/-- Whether that is announced: the child is gone. -/
def missed : Reception Envelope → Bool
  | .ended | .failed .closed => true
  | _ => false

theorem replied_of_ne {pid : Pid} {e : ChannelError} (h : e ≠ .closed) :
    replied pid (.failed e) = .error (.channel e) := by
  cases e with
  | closed => exact absurd rfl h
  | _ => rfl

theorem missed_of_ne {e : ChannelError} (h : e ≠ .closed) : missed (.failed e) = false := by
  cases e with
  | closed => exact absurd rfl h
  | _ => rfl

/-- The event of a child that is gone without a reply. -/
def silence (s : Supervisor σ) (pid : Pid) (m : Message) : Event :=
  .exited s.name pid ("no reply to '" ++ m.name ++ "'")

/-- A request returns an answer and announces some events. The supervisor stays started, and is as
it was but for its channel. -/
inductive Returns (H : Host η) (m : Message) (s : Scene η σ)
    (answer : Except SupervisorError (Option Envelope)) (news : List Event) : Prop
  | intro {pid : Pid} {line : Line} {c c' : Channel} {reaped : Bool}
      (hlife : s.supervisor.life = .started pid line c reaped)
      (hanswer : (request H m s).1 = answer)
      (h : Follows s (request H m s).2 (.started pid line c' reaped) news)

section
variable (H : Host η) {s : Scene η σ} {pid : Pid} {line : Line} {c c' : Channel} {reaped : Bool}
  {m : Message}

/-- **A request returns** what it has come to on its channel. -/
theorem returns_of_ask (hlife : s.supervisor.life = .started pid line c reaped)
    {r : Reception Envelope} {h : η} (hask : ask m (H.transport line) c s.host = (r, c', h)) :
    Returns H m s (replied pid r) (if missed r then [s.supervisor.silence pid m] else []) := by
  let used : Scene η σ :=
    { supervisor := { s.supervisor with
        lastActivity := H.now s.host, life := .started pid line c' reaped }
      host := h
      events := s.events }
  have hchannel : onChannel H (ask m) (touch H s).2 = (.ok r, used) :=
    onChannel_run H (ask m) (s := (touch H s).2) hlife hask
  have hpid : (touch H s).2.supervisor.life.pid?.getD 0 = pid := by
    have htouched : (touch H s).2.supervisor.life = s.supervisor.life := rfl
    rw [htouched, hlife]
    rfl
  have hrun : request H m s =
      (replied pid r, if missed r then
        { used with events := s.events ++ [s.supervisor.silence pid m] } else used) := by
    rw [request, bind_run, bind_run, get_run, bind_run, hchannel, hpid]
    cases r with
    | item | waiting | ended => rfl
    | failed e => cases e <;> rfl
  have hfollows : Follows s (request H m s).2 (.started pid line c' reaped)
      (if missed r then [s.supervisor.silence pid m] else []) := by
    rw [hrun]
    cases missed r with
    | true => exact ⟨rfl, rfl, rfl, rfl, rfl⟩
    | false => exact ⟨rfl, rfl, rfl, rfl, (List.append_nil _).symm⟩
  exact .intro hlife (by rw [hrun]) hfollows

section
variable {xs : Octets} {T : Transport η} (hT : T.Lawful)
  (hm : Frame.encodeMessage m false c.limit = .ok xs)
include hT hm

/-- A request that is not written is a closed channel. -/
theorem ask_of_loses {h : η} (hloses : T.Loses h xs) :
    ∃ h', ask m T c h = (.failed .closed, c, h') := by
  obtain ⟨h', hwrites⟩ := Channel.writes_of_loses hloses
  refine ⟨h', ?_⟩
  rw [ask, Channel.send, hm]
  simp only
  rw [(Channel.writes_iff hT).1 hwrites]

/-- A request that is written comes to what is received. -/
theorem ask_of_written {h h' : η} (hwrites : Channel.Writes T xs none h (.ok (), h')) :
    ask m T c h = ((c.nextFrame T h').1.toEnvelope, (c.nextFrame T h').2) := by
  rw [ask, Channel.send, hm]
  simp only
  rw [(Channel.writes_iff hT).1 hwrites]
  exact Channel.receive_eq T c h'

end

/-- A request that is written to a child that goes away then returns what is ahead of the channel,
unless it is interrupted. -/
theorem returns_of_abandoned (hlife : s.supervisor.life = .started pid line c reaped)
    (hT : (H.transport line).Lawful) {xs : Octets}
    (hm : Frame.encodeMessage m false c.limit = .ok xs) {h : η} {stream : Stream}
    (hwrites : Channel.Writes (H.transport line) xs none s.host (.ok (), h))
    (habandoned : c.Abandoned (H.transport line) h stream) :
    c.interruptible = true ∧ Returns H m s (.error (.channel .interrupted)) [] ∨
    ∀ answer : Reception (Frame × Option Descriptor), c.Faces stream answer →
      Returns H m s (replied pid answer.toEnvelope)
        (if missed answer.toEnvelope then [s.supervisor.silence pid m] else []) := by
  have hask := ask_of_written hT hm hwrites
  have hfetches := (Channel.fetches_iff hT).2
    (rfl : c.nextFrame (H.transport line) h = c.nextFrame (H.transport line) h)
  generalize c.nextFrame (H.transport line) h = out at hask hfetches
  have hreturns := returns_of_ask H hlife hask
  by_cases hinterrupted : c.interruptible = true ∧ out.1 = .failed .interrupted
  · rw [hinterrupted.2] at hreturns
    exact .inl ⟨hinterrupted.1, hreturns⟩
  · refine .inr fun answer hfaces => ?_
    rwa [(hfetches.faces habandoned hfaces).resolve_right hinterrupted] at hreturns

/-- **A child that goes away without a reply is reported to be gone**, whether that is noticed
before the request is written, in the middle of it or behind it. A message that it has sent is not
lost: that is the reply. At what else it may have sent, a part of a frame among it, the request
fails, and nothing is announced. A channel that reports interruptions may report one. -/
theorem departure_reported (hlife : s.supervisor.life = .started pid line c reaped)
    (hT : (H.transport line).Lawful) {xs : Octets}
    (hm : Frame.encodeMessage m false c.limit = .ok xs) :
    let T := H.transport line
    (T.Loses s.host xs → Returns H m s (.error (.exited pid)) [s.supervisor.silence pid m]) ∧
    ∀ (h : η) (stream : Stream), Channel.Writes T xs none s.host (.ok (), h) →
      c.Abandoned T h stream →
      c.interruptible = true ∧ Returns H m s (.error (.channel .interrupted)) [] ∨
      (c.buffer = [] → stream = [] →
        Returns H m s (.error (.exited pid)) [s.supervisor.silence pid m]) ∧
      (∀ reply d, c.Ahead stream (.message reply d.isSome) d →
        Returns H m s (.ok (some ⟨reply, d⟩)) []) ∧
      (∀ data d, c.Ahead stream (.scalar data d.isSome) d →
        Returns H m s (.error (.channel (.unexpected "message" "scalar"))) []) ∧
      (∀ e, c.Barred stream e → Returns H m s (.error (.channel e)) []) := by
  intro T
  refine ⟨fun hloses => ?_, fun h stream hwrites habandoned => ?_⟩
  · obtain ⟨h, hask⟩ := ask_of_loses hT hm hloses
    exact returns_of_ask H hlife hask
  · refine (returns_of_abandoned H hlife hT hm hwrites habandoned).imp_right fun hreturns => ?_
    refine ⟨fun hbuffer hstream => hreturns _ (.nothing hbuffer hstream),
      fun reply d hahead => hreturns _ (.frame hahead),
      fun data d hahead => hreturns _ (.frame hahead), fun e hbarred => ?_⟩
    have hfailed := hreturns _ (.barred hbarred)
    rwa [Reception.toEnvelope, replied_of_ne hbarred.ne_closed, missed_of_ne hbarred.ne_closed]
      at hfailed

end

/-! ### Lines that are scripts -/

deriving instance DecidableEq for Except

/-- A host whose lines are scripts. Nothing else happens on it. -/
def scriptHost : Host Scripted where
  now _ := Instant.origin
  sleep _ t := t
  openLine t := (.ok default, t)
  dropLine _ t := t
  fork _ _ t := (.ok 7, t)
  transport _ := Scripted.transport .full
  closeLine _ t := t
  reap _ t := (false, t)
  kill _ _ t := (true, t)

/-- A supervisor that is started on a script. -/
def onScript (t : Scripted) : Scene Scripted Unit where
  supervisor := { Supervisor.ofServer (.plain "plain") () {} Instant.origin with
    life := .started 7 default { limit := 64 } false }
  host := t

/-- The child is gone before the request is written, in the middle of it, before there is an octet
of a reply, in the middle of a reply, and behind one. -/
theorem departure_reported_on_script :
    let m : Message := ⟨"hi", []⟩
    let gone (t : Scripted) := Returns scriptHost m (onScript t) (.error (.exited 7))
      [.exited "plain" 7 "no reply to 'hi'"]
    gone { writes := [.fault .brokenPipe] } ∧
    gone { writes := [.accept 3, .fault (.plain .interrupted), .accept 0] } ∧
    gone { reads := [.fault (.plain .interrupted), .data [] []] } ∧
    Returns scriptHost m (onScript { reads := [.data [1, 0, 0, 0, 0, 8, 0] [], .data [] []] })
      (.error (.channel (.violation (.cutShort 7)))) [] ∧
    Returns scriptHost m
      (onScript { reads := [.data [1, 0, 0, 0] [], .data [0, 8, 0, 1, 0, 0, 0, 2, 104, 105] [],
        .fault (.plain .connectionReset)] }) (.ok (some ⟨m, none⟩)) [] := by
  intro m gone
  have hm : Frame.encodeMessage m false 64 = .ok [1, 0, 0, 0, 0, 8, 0, 1, 0, 0, 0, 2, 104, 105] :=
    by decide
  have hreported (t : Scripted) :=
    departure_reported scriptHost (s := onScript t) rfl (Scripted.transport_lawful .full) hm
  let written (reads : List ReadEntry) : Scripted :=
    Scripted.accept { reads } [1, 0, 0, 0, 0, 8, 0, 1, 0, 0, 0, 2, 104, 105] none
  have hwrites (reads : List ReadEntry) : Channel.Writes (Scripted.transport .full)
      [1, 0, 0, 0, 0, 8, 0, 1, 0, 0, 0, 2, 104, 105] none { reads } (.ok (), written reads) :=
    .accepted (by decide) (n := 14) (by decide) rfl .done
  refine ⟨?_, ?_, ?_, ?_, ?_⟩
  · refine (hreported _).1 (.gone (by decide) ?_ rfl)
    decide
  · refine (hreported _).1 (.accepted (by decide) (n := 3) (by decide) rfl ?_)
    exact .interrupted (by decide) rfl rfl (.refused (by decide) rfl)
  · have hends : Channel.Abandoned (Scripted.transport .full) { limit := 64 } (written
        [.fault (.plain .interrupted), .data [] []]) [] :=
      .inl ⟨rfl, .interrupted rfl rfl (.atEnd rfl)⟩
    rcases (hreported _).2 _ _ (hwrites _) hends with ⟨hreports, -⟩ | ⟨hnothing, -⟩
    · cases hreports
    · exact hnothing rfl rfl
  · have hbrings : (Scripted.transport .full).Brings (written
        [.data [1, 0, 0, 0, 0, 8, 0] [], .data [] []])
        (Stream.tagged [1, 0, 0, 0, 0, 8, 0] none ++ []) :=
      .piece (by decide) rfl (.atEnd rfl)
    rcases (hreported _).2 _ _ (hwrites _) (.inl ⟨rfl, hbrings⟩) with
      ⟨hreports, -⟩ | ⟨-, -, -, hbarred⟩
    · cases hreports
    · exact hbarred _ (.cutShort (by decide) (by decide +kernel))
  · have hbrings : (Scripted.transport .full).Brings (written
        [.data [1, 0, 0, 0] [], .data [0, 8, 0, 1, 0, 0, 0, 2, 104, 105] [],
          .fault (.plain .connectionReset)])
        (Stream.tagged [1, 0, 0, 0] none ++
          (Stream.tagged [0, 8, 0, 1, 0, 0, 0, 2, 104, 105] none ++ [])) :=
      .piece (by decide) rfl (.piece (by decide) rfl (.reset rfl rfl))
    rcases (hreported _).2 _ _ (hwrites _) (.inl ⟨rfl, hbrings⟩) with
      ⟨hreports, -⟩ | ⟨-, hmessage, -⟩
    · cases hreports
    · exact hmessage m none (@Channel.Ahead.plain _ _ _ [] (by decide +kernel) rfl)

/-! ### What is not reported -/

/-- A server that sends a scalar at first, and is killed by what it is asked for. -/
def mortal : Server Unit where
  name _ := "mortal"
  handlers := .ofList [("die", fun _ => Code.raise .kill)]
  setup := Code.sendScalar [7]

/-- **A child that goes away without a reply is not always reported to be gone.** One goes away in
the middle of its reply, which is taken for a failure of the channel. Another has sent a scalar and
is killed by the request, which has the scalar in place of a reply. Neither is announced. -/
theorem departure_unreported :
    (let s := onScript { reads := [.data [1, 0, 0, 0, 0, 8, 0] [], .data [] []] }
      let out := request scriptHost ⟨"hi", []⟩ s
      s.supervisor.isStarted = true ∧
      out.1 = .error (.channel (.violation (.cutShort 7))) ∧ out.2.events = s.events) ∧
    (let s := (start Machine.host
        { supervisor := .ofServer mortal () { maxMessageSize := 64 } Instant.origin
          host := {} }).2
      let out := request Machine.host ⟨"die", []⟩ s
      let sent := (out.2.host.child? 1).map fun child => child.view.sent.map Segment.octets
      s.supervisor.life.pid? = some 1 ∧ s.supervisor.isStarted = true ∧
      sent = some [[2, 0, 0, 0, 0, 1, 7]] ∧ (out.2.host.reap 1).1 = true ∧
      out.1 = .error (.channel (.unexpected "message" "scalar")) ∧ out.2.events = s.events) := by
  decide +kernel

end Supervisor

end Overseer
