import Overseer.Channel.Scripted
import Overseer.Proofs.Channel.Receiving
import Overseer.Proofs.Channel.Stream
import Overseer.Proofs.Frame.Stability

/-!
# The schedule of the reads plays no part

A `Stream` is what a peer has sent: octets, each with the descriptors attached to it. A transport
`Delivers` a stream if its reads bring the stream piece by piece and then its end, with failed reads
anywhere in between. What a caller receives who repeats the calls that a read failed (`Answers`)
depends on the stream alone (`answers_independent_of_schedule`), provided that descriptors are
`Punctual`: none is attached behind the frame that takes it.

The proof compares a channel with `Channel.whole`, the same channel when the whole stream has been
read: a read does not change that channel, and an answer of the channel is an answer of the whole
one. Punctuality is carried along as `Due`, which speaks of what is still to be taken.
-/

namespace Overseer

/-- The reads of a transport bring a stream and its end. -/
inductive Transport.Delivers {τ : Type} (T : Transport τ) : τ → Stream → Prop
  /-- A read brings the next octets, with the descriptors that are attached to them. -/
  | piece {t t' : τ} {piece rest : Stream} (hne : piece ≠ [])
      (hread : T.read t Channel.chunkSize = (some (.data piece.octets piece.descriptors), t'))
      (hrest : T.Delivers t' rest) : T.Delivers t (piece ++ rest)
  /-- A read fails and brings nothing. -/
  | fault {t t' : τ} {s : Stream} {e : IoError} (he : e.kind ≠ .connectionReset)
      (hread : T.read t Channel.chunkSize = (some (.failure e), t')) (hrest : T.Delivers t' s) :
      T.Delivers t s
  /-- A read finds the end of the stream. -/
  | atEnd {t t' : τ} (hread : T.read t Channel.chunkSize = (some .atEnd, t')) : T.Delivers t []
  /-- A read finds that the peer is gone. -/
  | reset {t t' : τ} {e : IoError} (he : e.kind = .connectionReset)
      (hread : T.read t Channel.chunkSize = (some (.failure e), t')) : T.Delivers t []

/-- The frames that octets start with, and what follows them. -/
inductive Frame.Leads (limit : Nat) : Octets → List Frame → Octets → Prop
  | nil (xs : Octets) : Leads limit xs [] xs
  | cons {xs rest rest' : Octets} {frame : Frame} {frames : List Frame}
      (h : Frame.decode limit xs = .ok (some (frame, rest)))
      (hrest : Leads limit rest frames rest') : Leads limit xs (frame :: frames) rest'

/-- The number of frames that take a descriptor. -/
def Frame.flags (frames : List Frame) : Nat := frames.countP Frame.flagged

/-- No descriptor is attached behind the frame that takes it: the part of a stream in which its
first frames lie holds a descriptor for each of them that is flagged, or all that there are. -/
def Stream.Punctual (limit : Nat) (s : Stream) : Prop :=
  ∀ frames front back, s = front ++ back → Frame.Leads limit s.octets frames back.octets →
    min (Frame.flags frames) s.descriptors.length ≤ front.descriptors.length

/-! ## Callers -/

namespace Channel

section
variable {τ : Type} (T : Transport τ)

/-- What a call comes to that is repeated while a read fails it. -/
inductive Completes (ask : Ask) : Channel → τ → Reception Item → Channel → τ → Prop
  | answered {c c' : Channel} {t t' : τ} {r : Reception Item}
      (h : call T ask c t = (r, c', t')) (hr : r.completed = true) : Completes ask c t r c' t'
  | repeated {c c₁ c' : Channel} {t t₁ t' : τ} {r : Reception Item} {e : ChannelError}
      (h : call T ask c t = (.failed e, c₁, t₁)) (he : e.ofRead = true)
      (hrest : Completes ask c₁ t₁ r c' t') : Completes ask c t r c' t'

/-- What a sequence of calls comes to. -/
inductive Answers : Channel → τ → List Ask → List (Reception Item) → Prop
  | nil (c : Channel) (t : τ) : Answers c t [] []
  | cons {c c' : Channel} {t t' : τ} {ask : Ask} {asks : List Ask} {r : Reception Item}
      {rs : List (Reception Item)} (h : Completes T ask c t r c' t')
      (hrest : Answers c' t' asks rs) : Answers c t (ask :: asks) (r :: rs)

end

/-! ## The whole stream at once -/

/-- The channel when all of a stream has been read. -/
def whole (c : Channel) (s : Stream) : Channel :=
  { c with
    buffer := c.buffer ++ s.octets
    descriptors := c.descriptors ++ s.descriptors
    ended := true
    interruptible := false }

/-- What calls receive of a channel whose stream has ended. -/
def replies : List Ask → Channel → List (Reception Item)
  | [], _ => []
  | ask :: asks, c =>
    match c.settled? with
    | some (answer, c) => ask.accept answer :: replies asks c
    | none => []

/-- Reading does not change what the channel is when all has been read. -/
theorem whole_absorb (c : Channel) (piece s : Stream) :
    whole { c with
      buffer := c.buffer ++ piece.octets
      descriptors := c.descriptors ++ piece.descriptors } s = c.whole (piece ++ s) := by
  simp [whole]

/-- A channel that has read everything is the whole one, up to how it treats interruptions. -/
theorem whole_nil (c : Channel) :
    c.whole [] = { c with ended := true, interruptible := false } := by
  simp [whole]

/-! ## Punctuality, carried along -/

/-- The descriptors that `held` and a stream hold come in time for the frames of a buffer and the
stream: those frames that end before the stream is left take none that is attached behind them. -/
def Due (limit held : Nat) (buffer : Octets) (s : Stream) : Prop :=
  ∀ frames rest, Frame.Leads limit (buffer ++ s.octets) frames rest →
    min (Frame.flags frames) (held + s.descriptors.length) ≤
      held + (Stream.descriptors (s.take (s.length - rest.length))).length

end Channel

/-- The frames that octets start with stand in front of what follows them. -/
theorem Frame.Leads.suffix {limit : Nat} {xs rest : Octets} {frames : List Frame}
    (h : Frame.Leads limit xs frames rest) : ∃ front, xs = front ++ rest := by
  induction h with
  | nil xs => exact ⟨[], rfl⟩
  | cons h _ ih =>
    obtain ⟨front, rfl, -⟩ := Frame.decode_consumes h
    obtain ⟨front', rfl⟩ := ih
    exact ⟨front ++ front', (List.append_assoc ..).symm⟩

/-- A punctual stream is due at a channel that has read nothing of it. -/
theorem Stream.Punctual.due {limit : Nat} {s : Stream} (h : s.Punctual limit) :
    Channel.Due limit 0 [] s := by
  intro frames rest hleads
  obtain ⟨xs, hxs⟩ := hleads.suffix
  have hlen : s.length = xs.length + rest.length := by
    rw [← length_octets, ← List.length_append, ← hxs, List.nil_append]
  have hrest : Stream.octets (s.drop (s.length - rest.length)) = rest := by
    rw [Stream.octets, List.map_drop, ← Stream.octets, ← List.nil_append s.octets, hxs, hlen,
      Nat.add_sub_cancel, List.drop_left]
  have hle := h frames _ _ (List.take_append_drop (s.length - rest.length) s).symm
    (hrest.symm ▸ hleads)
  omega

namespace Channel

variable {τ : Type} {T : Transport τ} {c c' : Channel} {t t' : τ} {s : Stream}

/-- What is due stays due when a part of the stream is read. -/
theorem Due.read {limit held : Nat} {buffer : Octets} {piece : Stream}
    (h : Due limit held buffer (piece ++ s)) :
    Due limit (held + piece.descriptors.length) (buffer ++ piece.octets) s := by
  intro frames rest hleads
  rw [List.append_assoc, ← Stream.octets_append] at hleads
  have hle := h frames rest hleads
  -- the part of the stream that the frames lie in grows by no more than the piece
  have hpart : (Stream.descriptors ((piece ++ s).take ((piece ++ s).length - rest.length))).length ≤
      piece.descriptors.length +
        (Stream.descriptors (s.take (s.length - rest.length))).length := by
    have hmono := Stream.length_descriptors_take_le (piece ++ s)
      (show (piece ++ s).length - rest.length ≤ piece.length + (s.length - rest.length) by
        rw [List.length_append]; omega)
    rw [List.take_length_add_append, Stream.descriptors_append] at hmono
    exact Nat.le_trans hmono (Nat.le_of_eq List.length_append)
  rw [Stream.descriptors_append, List.length_append] at hle
  omega

/-- What is due stays due when a frame is taken off the buffer that takes no descriptor. -/
theorem Due.plain {limit held : Nat} {buffer rest : Octets} {frame : Frame}
    (h : Due limit held buffer s) (hdec : Frame.decode limit buffer = .ok (some (frame, rest)))
    (hf : frame.flagged = false) : Due limit held rest s := by
  intro frames rest' hleads
  have hle := h (frame :: frames) rest' (.cons (Frame.decode_append hdec _) hleads)
  rwa [Frame.flags, List.countP_cons_of_neg (by simp [hf])] at hle

/-- What is due stays due when a frame takes a descriptor that is held. -/
theorem Due.flagged {limit held : Nat} {buffer rest : Octets} {frame : Frame}
    (h : Due limit (held + 1) buffer s)
    (hdec : Frame.decode limit buffer = .ok (some (frame, rest))) (hf : frame.flagged = true) :
    Due limit held rest s := by
  intro frames rest' hleads
  have hle := h (frame :: frames) rest' (.cons (Frame.decode_append hdec _) hleads)
  rw [Frame.flags, List.countP_cons_of_pos hf, ← Frame.flags] at hle
  omega

/-- If a frame that is buffered finds no descriptor held, then there is none in the stream. -/
theorem Due.missing {limit : Nat} {buffer rest : Octets} {frame : Frame}
    (h : Due limit 0 buffer s) (hdec : Frame.decode limit buffer = .ok (some (frame, rest)))
    (hf : frame.flagged = true) : s.descriptors = [] ∧ Due limit 0 rest s := by
  have hle := h [frame] _ (.cons (Frame.decode_append hdec _) (.nil _))
  have hlen : s.length - (rest ++ s.octets).length = 0 := by
    rw [List.length_append, Stream.length_octets]
    omega
  rw [hlen, List.take_zero, Stream.descriptors_nil, Frame.flags, List.countP_cons_of_pos hf] at hle
  have hnone : s.descriptors.length = 0 := by
    simp only [List.countP_nil, List.length_nil] at hle
    omega
  refine ⟨List.length_eq_zero_iff.1 hnone, fun frames rest' _ => ?_⟩
  omega

/-! ## A call, seen from the whole stream -/

/-- What is still to come to a channel: a stream, or nothing if it has met the end. -/
def Expects (T : Transport τ) (c : Channel) (t : τ) (s : Stream) : Prop :=
  Due c.limit c.descriptors.length c.buffer s ∧
    (c.ended = false ∧ T.Delivers t s ∨ c.ended = true ∧ s = [])

/-- **An answer of a channel is the answer of the whole channel**, and leaves what is to come. -/
theorem settled?_whole {answer : Reception (Frame × Option Descriptor)}
    (h : c.settled? = some (answer, c')) (hs : Expects T c t s) :
    (c.whole s).settled? = some (answer, c'.whole s) ∧ Expects T c' t s := by
  obtain ⟨hdue, hcome⟩ := hs
  have hover : c.ended = true → s = [] := by
    intro hc
    rcases hcome with ⟨hopen, -⟩ | ⟨-, hnil⟩
    · rw [hc] at hopen
      cases hopen
    · exact hnil
  rw [settles_iff] at h ⊢
  cases h with
  | refused hdec => exact ⟨.refused (Frame.decode_append_error hdec _), hdue, hcome⟩
  | plain hdec hf =>
    exact ⟨.plain (Frame.decode_append hdec _) hf, hdue.plain hdec hf, hcome⟩
  | flagged hdec hf hd =>
    rw [hd] at hdue
    refine ⟨.flagged (Frame.decode_append hdec _) hf ?_, hdue.flagged hdec hf, hcome⟩
    rw [whole, hd, List.cons_append]
  | @missing frame rest hdec hf hd =>
    rw [hd] at hdue
    obtain ⟨hnone, hrest⟩ := hdue.missing hdec hf
    refine ⟨.missing (Frame.decode_append hdec _) hf ?_, ?_, hcome⟩
    · rw [whole, hd, hnone, List.append_nil]
    · show Due c.limit c.descriptors.length rest s
      rw [hd]
      exact hrest
  | atEnd hdec hc hempty =>
    -- the stream is over, so the whole channel has the same buffer
    obtain rfl := hover hc
    rw [whole_nil]
    exact ⟨.atEnd hdec rfl hempty, hdue, hcome⟩
  | cutShort hdec hc hne =>
    obtain rfl := hover hc
    rw [whole_nil]
    exact ⟨.cutShort hdec rfl hne, hdue, hcome⟩

/-- A channel without an answer waits for a schedule to go on. -/
theorem Expects.delivers (hs : Expects T c t s) (h : c.settled? = none) :
    c.ended = false ∧ T.Delivers t s := by
  rcases hs.2 with hopen | ⟨hended, -⟩
  · exact hopen
  · exact absurd h (settled?_of_ended hended)

/-- A read of a schedule after which the call goes on, or which fails the call, does not change the
whole channel. -/
theorem Expects.absorb {r : Reading} {failure : Option ChannelError} (hs : Expects T c t s)
    (h : c.settled? = none) (hread : T.read t chunkSize = (some r, t'))
    (habsorb : c.absorb r = (failure, c')) :
    (∀ e, failure = some e → e.ofRead = true) ∧
      ∃ s', Expects T c' t' s' ∧ c'.whole s' = c.whole s := by
  obtain ⟨hopen, hdeliv⟩ := hs.delivers h
  have hdue := hs.1
  cases hdeliv with
  | piece hne hread₁ hrest =>
    rw [hread] at hread₁
    cases hread₁
    rw [absorb_data (by rwa [Ne, Stream.octets_eq_nil])] at habsorb
    cases habsorb
    refine ⟨nofun, _, ⟨?_, .inl ⟨hopen, hrest⟩⟩, whole_absorb ..⟩
    rw [List.length_append]
    exact hdue.read
  | @fault _ _ _ cause he hread₁ hrest =>
    rw [hread] at hread₁
    cases hread₁
    by_cases hkind : cause.kind = .interrupted
    · rw [absorb_interrupted hkind] at habsorb
      cases habsorb
      refine ⟨fun e hfail => ?_, s, ⟨hdue, .inl ⟨hopen, hrest⟩⟩, rfl⟩
      split at hfail <;> cases hfail
      rfl
    · rw [absorb_failure hkind he] at habsorb
      cases habsorb
      refine ⟨fun e hfail => ?_, s, ⟨hdue, .inl ⟨hopen, hrest⟩⟩, rfl⟩
      cases hfail
      rfl
  | atEnd hread₁ =>
    rw [hread] at hread₁
    cases hread₁
    rw [absorb_atEnd] at habsorb
    cases habsorb
    exact ⟨nofun, [], ⟨hdue, .inr ⟨rfl, rfl⟩⟩, rfl⟩
  | reset he hread₁ =>
    rw [hread] at hread₁
    cases hread₁
    rw [absorb_reset he] at habsorb
    cases habsorb
    exact ⟨nofun, [], ⟨hdue, .inr ⟨rfl, rfl⟩⟩, rfl⟩

/-- **What a call comes to, seen from the whole stream.** A read fails it and nothing is lost, or
its answer is that of the whole channel. -/
theorem Fetches.whole {out : Reception (Frame × Option Descriptor) × Channel × τ}
    (h : Fetches T c t out) (hs : Expects T c t s) :
    ∃ s', Expects T out.2.1 out.2.2 s' ∧
      ((∃ e, out.1 = .failed e ∧ e.ofRead = true ∧ out.2.1.whole s' = c.whole s) ∨
        (out.1.completed = true ∧ (c.whole s).settled? = some (out.1, out.2.1.whole s'))) := by
  induction h generalizing s with
  | settled h =>
    obtain ⟨hwhole, hs'⟩ := settled?_whole h hs
    exact ⟨s, hs', .inr ⟨completed_of_settled h, hwhole⟩⟩
  | dry h hread =>
    -- a schedule always goes on
    obtain ⟨-, hdeliv⟩ := hs.delivers h
    cases hdeliv with
    | piece _ hread₁ | fault _ hread₁ | atEnd hread₁ | reset _ hread₁ =>
      rw [hread] at hread₁
      cases hread₁
  | broken h hread habsorb =>
    obtain ⟨hfail, s', hs', hwhole⟩ := hs.absorb h hread habsorb
    exact ⟨s', hs', .inl ⟨_, rfl, hfail _ rfl, hwhole⟩⟩
  | onward h hread habsorb _ ih =>
    obtain ⟨-, s', hs', hwhole⟩ := hs.absorb h hread habsorb
    obtain ⟨s'', hs'', hout⟩ := ih hs'
    rw [hwhole] at hout
    exact ⟨s'', hs'', hout⟩

/-! ## Calls that are repeated -/

/-- A call that a channel can answer without a read is through. -/
theorem Completes.of_settled (hT : T.Lawful) {answer : Reception (Frame × Option Descriptor)}
    (ask : Ask) (h : c.settled? = some (answer, c')) :
    Completes T ask c t (ask.accept answer) c' t := by
  have hnext : nextFrame T c t = (answer, c', t) := (fetches_iff hT).1 (.settled h)
  refine .answered (by rw [call_eq, hnext]) ?_
  rw [Ask.completed_accept]
  exact completed_of_settled h

/-- A call comes to what it comes to after a read that lets it go on. -/
theorem Completes.onward (hT : T.Lawful) {c₁ : Channel} {t₁ : τ} {ask : Ask} {r : Reading}
    {result : Reception Item} (h : c.settled? = none)
    (hread : T.read t chunkSize = (some r, t₁)) (habsorb : c.absorb r = (none, c₁))
    (hrest : Completes T ask c₁ t₁ result c' t') : Completes T ask c t result c' t' := by
  have hnext : nextFrame T c t = nextFrame T c₁ t₁ :=
    (fetches_iff hT).1 (.onward h hread habsorb ((fetches_iff hT).2 rfl))
  have hcall : call T ask c t = call T ask c₁ t₁ := by
    rw [call_eq, call_eq, hnext]
  cases hrest with
  | answered hfirst hr => exact .answered (hcall.trans hfirst) hr
  | repeated hfirst he hrest => exact .repeated (hcall.trans hfirst) he hrest

/-- A call that a read fails comes to what its repetition comes to. -/
theorem Completes.again (hT : T.Lawful) {c₁ : Channel} {t₁ : τ} {ask : Ask} {r : Reading}
    {e : ChannelError} {result : Reception Item} (h : c.settled? = none)
    (hread : T.read t chunkSize = (some r, t₁)) (habsorb : c.absorb r = (some e, c₁))
    (he : e.ofRead = true) (hrest : Completes T ask c₁ t₁ result c' t') :
    Completes T ask c t result c' t' := by
  have hnext : nextFrame T c t = (.failed e, c₁, t₁) :=
    (fetches_iff hT).1 (.broken h hread habsorb)
  refine .repeated ?_ he hrest
  rw [call_eq, hnext]
  cases ask <;> rfl

/-- On a schedule every call is through at last: each of its failures has used up a read. -/
theorem Expects.completes (hT : T.Lawful) (hs : Expects T c t s) (ask : Ask) :
    ∃ r c' t', Completes T ask c t r c' t' := by
  have hended : ∀ {c : Channel} {t : τ}, c.ended = true →
      ∃ r c' t', Completes T ask c t r c' t' := by
    intro c t hc
    obtain ⟨answer, h⟩ := Option.ne_none_iff_exists'.1 (settled?_of_ended hc)
    exact ⟨_, _, _, .of_settled hT ask h⟩
  obtain ⟨hopen, hdeliv⟩ | ⟨hc, -⟩ := hs.2
  · clear hs
    induction hdeliv generalizing c with
    | @piece t t' piece rest hne hread _ ih =>
      cases h : c.settled? with
      | some answer => exact ⟨_, _, _, .of_settled hT ask h⟩
      | none =>
        obtain ⟨r, c', t', hrest⟩ := ih (c := { c with
          buffer := c.buffer ++ piece.octets
          descriptors := c.descriptors ++ piece.descriptors }) hopen
        have habsorb := absorb_data (c := c) (by rwa [Ne, Stream.octets_eq_nil]) piece.descriptors
        exact ⟨r, c', t', hrest.onward hT h hread habsorb⟩
    | @fault t t' s e he hread _ ih =>
      cases h : c.settled? with
      | some answer => exact ⟨_, _, _, .of_settled hT ask h⟩
      | none =>
        obtain ⟨r, c', t', hrest⟩ := ih hopen
        by_cases hkind : e.kind = .interrupted
        · have habsorb := absorb_interrupted (c := c) hkind
          cases hi : c.interruptible with
          | true =>
            rw [hi] at habsorb
            exact ⟨r, c', t', hrest.again hT h hread habsorb rfl⟩
          | false =>
            rw [hi] at habsorb
            exact ⟨r, c', t', hrest.onward hT h hread habsorb⟩
        · exact ⟨r, c', t', hrest.again hT h hread (absorb_failure hkind he) rfl⟩
    | atEnd hread =>
      cases h : c.settled? with
      | some answer => exact ⟨_, _, _, .of_settled hT ask h⟩
      | none =>
        obtain ⟨r, c', t', hrest⟩ := hended (c := { c with ended := true }) rfl
        exact ⟨r, c', t', hrest.onward hT h hread absorb_atEnd⟩
    | reset he hread =>
      cases h : c.settled? with
      | some answer => exact ⟨_, _, _, .of_settled hT ask h⟩
      | none =>
        obtain ⟨r, c', t', hrest⟩ := hended (c := { c with ended := true }) rfl
        exact ⟨r, c', t', hrest.onward hT h hread (absorb_reset he)⟩
  · exact hended hc

/-- What a repeated call comes to is what the whole channel answers. -/
theorem Completes.whole (hT : T.Lawful) {ask : Ask} {r : Reception Item}
    (h : Completes T ask c t r c' t') (hs : Expects T c t s) :
    ∃ answer s', (c.whole s).settled? = some (answer, c'.whole s') ∧ r = ask.accept answer ∧
      Expects T c' t' s' := by
  induction h generalizing s with
  | @answered c c' t t' r h hr =>
    have hfetch : Fetches T c t (nextFrame T c t) := (fetches_iff hT).2 rfl
    rw [call_eq] at h
    generalize nextFrame T c t = out at h hfetch
    obtain ⟨answer, c₁, t₁⟩ := out
    cases h
    obtain ⟨s', hs', ⟨e, rfl, he, -⟩ | ⟨-, hwhole⟩⟩ := hfetch.whole hs
    · rw [Ask.completed_accept, Reception.completed, he] at hr
      cases hr
    · exact ⟨answer, s', hwhole, rfl, hs'⟩
  | @repeated c c₁ c' t t₁ t' r e h he _ ih =>
    have hfetch : Fetches T c t (nextFrame T c t) := (fetches_iff hT).2 rfl
    rw [call_eq] at h
    generalize nextFrame T c t = out at h hfetch
    obtain ⟨answer, c₂, t₂⟩ := out
    obtain ⟨hanswer, hrest⟩ := Prod.mk.inj h
    cases hrest
    obtain ⟨s', hs', ⟨-, -, -, hsame⟩ | ⟨hr, -⟩⟩ := hfetch.whole hs
    · obtain ⟨answer', s'', hwhole, hr, hs''⟩ := ih hs'
      rw [hsame] at hwhole
      exact ⟨answer', s'', hwhole, hr, hs''⟩
    · rw [← Ask.completed_accept ask, hanswer, Reception.completed, he] at hr
      cases hr

/-- **What a caller receives is what the whole stream holds.** -/
theorem answers_iff (hT : T.Lawful) (hs : Expects T c t s) {asks : List Ask}
    {rs : List (Reception Item)} : Answers T c t asks rs ↔ rs = replies asks (c.whole s) := by
  induction asks generalizing c t s rs with
  | nil =>
    constructor
    · rintro ⟨⟩
      rfl
    · rintro rfl
      exact .nil c t
  | cons ask asks ih =>
    constructor
    · rintro (_ | ⟨h, hrest⟩)
      obtain ⟨answer, s', hwhole, rfl, hs'⟩ := h.whole hT hs
      rw [replies, hwhole, (ih hs').1 hrest]
    · rintro rfl
      obtain ⟨r, c', t', h⟩ := hs.completes hT ask
      obtain ⟨answer, s', hwhole, rfl, hs'⟩ := h.whole hT hs
      rw [replies, hwhole]
      exact .cons h ((ih hs').2 rfl)

/-- **What is received does not depend on the schedule of the reads.** Two schedules that deliver
the same stream, however they cut it, wherever reads fail and however the end is met, give the same
answers to the same calls, whether the two channels report interruptions or not. Every call has an
answer, and only one. -/
theorem answers_independent_of_schedule {τ₁ τ₂ : Type} {T₁ : Transport τ₁} {T₂ : Transport τ₂}
    (hT₁ : T₁.Lawful) (hT₂ : T₂.Lawful) {t₁ : τ₁} {t₂ : τ₂} {s : Stream} {limit : Nat}
    (hs : s.Punctual limit) (h₁ : T₁.Delivers t₁ s) (h₂ : T₂.Delivers t₂ s)
    (reports₁ reports₂ : Bool) (asks : List Ask) :
    ∃ rs,
      (∀ rs', Answers T₁ { limit, interruptible := reports₁ } t₁ asks rs' ↔ rs' = rs) ∧
      (∀ rs', Answers T₂ { limit, interruptible := reports₂ } t₂ asks rs' ↔ rs' = rs) := by
  have hwhole : ∀ reports : Bool, whole { limit, interruptible := reports } s =
      { limit, buffer := s.octets, descriptors := s.descriptors, ended := true } := by
    intro reports
    simp [whole]
  refine ⟨replies asks
    { limit, buffer := s.octets, descriptors := s.descriptors, ended := true }, ?_, ?_⟩
  · intro rs'
    rw [← hwhole reports₁]
    exact answers_iff hT₁ ⟨hs.due, .inl ⟨rfl, h₁⟩⟩
  · intro rs'
    rw [← hwhole reports₂]
    exact answers_iff hT₂ ⟨hs.due, .inl ⟨rfl, h₂⟩⟩

end Channel

namespace Scripted

/-- A script delivers the octets of an entry that one read can take. -/
theorem delivers_piece (piece : Stream) {reads : List ReadEntry} {s : Stream} (hne : piece ≠ [])
    (hlen : piece.length ≤ Channel.chunkSize)
    (h : (transport .full).Delivers ({ reads := reads } : Scripted) s) :
    (transport .full).Delivers
      ({ reads := .data piece.octets piece.descriptors :: reads } : Scripted) (piece ++ s) := by
  have hoctets : piece.octets.length ≤ Channel.chunkSize := by
    rwa [Stream.length_octets]
  refine .piece hne ?_ h
  simp only [transport, read, List.take_of_length_le hoctets, List.drop_eq_nil_of_le hoctets]
  rfl

/-- A script fails a read where it says so. -/
theorem delivers_fault (e : IoError) {reads : List ReadEntry} {s : Stream}
    (he : e.kind ≠ .connectionReset)
    (h : (transport .full).Delivers ({ reads := reads } : Scripted) s) :
    (transport .full).Delivers ({ reads := .fault e :: reads } : Scripted) s :=
  .fault he rfl h

end Scripted

namespace Channel

/-- A flagged scalar whose descriptor comes with its last octet, and the first octet of a frame that
is cut short: read at once, and read in three pieces between failures up to a reset. -/
theorem answers_independent_of_schedule_cut_short :
    ∃ rs,
      (∀ rs', Answers (Scripted.transport .full) { limit := 1 }
        { reads := [.data [2, 1, 0, 0, 0, 1, 7, 1] [⟨"log"⟩], .data [] []] }
        [.scalar, .message] rs' ↔ rs' = rs) ∧
      (∀ rs', Answers (Scripted.transport .full) { limit := 1, interruptible := true }
        { reads := [.data [2, 1, 0] [], .fault (.plain .interrupted), .fault (.plain .wouldBlock),
            .data [0, 0, 1] [], .data [7, 1] [⟨"log"⟩], .fault (.plain .connectionReset)] }
        [.scalar, .message] rs' ↔ rs' = rs) := by
  let first : Stream := [(2, []), (1, []), (0, [])]
  let second : Stream := [(0, []), (0, []), (1, [])]
  let third : Stream := [(7, [⟨"log"⟩]), (1, [])]
  have hs : Stream.Punctual 1 (first ++ (second ++ (third ++ []))) := by
    intro frames front back hsplit hleads
    have hscalar : Frame.decode 1 [2, 1, 0, 0, 0, 1, 7, 1] =
        .ok (some (.scalar [7] true, [1])) :=
      Frame.decode_eq_some.2 ⟨2, 1, 0, 0, 0, 1, [7], rfl, by decide, rfl, rfl⟩
    have hcut : Frame.decode 1 [1] = .ok none := rfl
    generalize hback : back.octets = rest at hleads
    cases hleads with
    | nil => exact Nat.zero_le _
    | cons h hrest =>
      cases hscalar.symm.trans h
      cases hrest with
      | nil =>
        -- what follows the scalar is one octet, so the descriptor lies in front of it
        have hone : back.length = 1 := by
          rw [← Stream.length_octets, hback]
          rfl
        have hlen : 8 = front.length + back.length := by
          rw [← List.length_append, ← hsplit]
          rfl
        have hfront : front = (first ++ (second ++ (third ++ []))).take 7 := by
          rw [hsplit, List.take_left' (by omega)]
        rw [hfront]
        decide
      | cons h' _ => cases hcut.symm.trans h'
  refine answers_independent_of_schedule (Scripted.transport_lawful _)
    (Scripted.transport_lawful _) hs ?_ ?_ false true [.scalar, .message]
  · have hend : (Scripted.transport .full).Delivers
        ({ reads := [.data [] []] } : Scripted) [] := .atEnd rfl
    exact Scripted.delivers_piece (first ++ (second ++ third)) (by decide) (by decide) hend
  · have hend : (Scripted.transport .full).Delivers
        ({ reads := [.fault (.plain .connectionReset)] } : Scripted) [] := .reset rfl rfl
    have hthird := Scripted.delivers_piece third (by decide) (by decide) hend
    have hsecond := Scripted.delivers_piece second (by decide) (by decide) hthird
    have hblocked := Scripted.delivers_fault (.plain .wouldBlock) (by decide) hsecond
    have hinterrupted := Scripted.delivers_fault (.plain .interrupted) (by decide) hblocked
    exact Scripted.delivers_piece first (by decide) (by decide) hinterrupted

end Channel

end Overseer
