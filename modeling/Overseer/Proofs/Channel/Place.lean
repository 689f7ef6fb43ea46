import Overseer.Proofs.Channel.Receiving
import Overseer.Proofs.Channel.Stream

/-!
# The place of a channel in a stream

Of the reads of a transport it may be known what stream is still to come, and how they may break off
in front of what is left of it (`Transport.Account`). A channel stands at a place of that stream
(`Channel.Stands`): the octets and descriptors of some frames are gone, what follows is held, as far
as it has been read, and the rest is still to come. What is held in which read plays no part, so a
call is told by the place alone what it comes to (`Tells`, `Fetches.tells`): the next frame and the
next descriptor of the stream, or why there is none, unless the reads break off before that is
decided.

Only a flagged frame for which no descriptor has come yet depends on the reads, if one is attached
behind it.
-/

namespace Overseer

/-! ## What is known of the reads -/

/-- What a read answers in front of a stream: a piece of it, its end, or that the peer is gone when
there is nothing left. Interrupted reads leave it as it is, and reads may break off. -/
inductive Transport.Answers {τ : Type} (comes : τ → Stream → Prop)
    (fails : IoError → Stream → τ → Prop) (waits : Stream → τ → Prop) (s : Stream) :
    Option Reading × τ → Prop
  | piece {piece rest : Stream} {t : τ} (hne : piece ≠ []) (hs : s = piece ++ rest)
      (hrest : comes t rest) :
      Answers comes fails waits s (some (.data piece.octets piece.descriptors), t)
  | interrupted {e : IoError} {t : τ} (he : e.kind = .interrupted) (hrest : comes t s) :
      Answers comes fails waits s (some (.failure e), t)
  | atEnd {t : τ} (hs : s = []) : Answers comes fails waits s (some .atEnd, t)
  | reset {e : IoError} {t : τ} (he : e.kind = .connectionReset) (hs : s = []) :
      Answers comes fails waits s (some (.failure e), t)
  | broken {r : Reading} {e : IoError} {t : τ} (hr : r.result = .error e)
      (he : e.kind ≠ .interrupted) (he' : e.kind ≠ .connectionReset) (h : fails e s t) :
      Answers comes fails waits s (some r, t)
  | dry {t : τ} (h : waits s t) : Answers comes fails waits s (none, t)

/-- What is known of the reads of a transport. -/
structure Transport.Account {τ : Type} (T : Transport τ) where
  /-- The stream is still to come. -/
  comes : τ → Stream → Prop
  /-- A read may fail in front of the stream, and leave the transport so. -/
  fails : IoError → Stream → τ → Prop
  /-- A read may wait for ever in front of the stream, and leave the transport so. -/
  waits : Stream → τ → Prop
  answers {t : τ} {s : Stream} (h : comes t s) :
    Answers comes fails waits s (T.read t Channel.chunkSize)

/-- The reads of a transport bring a stream and then its end, or that the peer is gone. Interrupted
reads come in between. -/
inductive Transport.Brings {τ : Type} (T : Transport τ) : τ → Stream → Prop
  | piece {t t' : τ} {piece rest : Stream} (hne : piece ≠ [])
      (hread : T.read t Channel.chunkSize = (some (.data piece.octets piece.descriptors), t'))
      (hrest : T.Brings t' rest) : T.Brings t (piece ++ rest)
  | interrupted {t t' : τ} {s : Stream} {e : IoError} (he : e.kind = .interrupted)
      (hread : T.read t Channel.chunkSize = (some (.failure e), t')) (hrest : T.Brings t' s) :
      T.Brings t s
  | atEnd {t t' : τ} (hread : T.read t Channel.chunkSize = (some .atEnd, t')) : T.Brings t []
  | reset {t t' : τ} {e : IoError} (he : e.kind = .connectionReset)
      (hread : T.read t Channel.chunkSize = (some (.failure e), t')) : T.Brings t []

/-- Reads that bring a stream to its end do not break off. -/
def Transport.bringing {τ : Type} (T : Transport τ) : T.Account where
  comes := T.Brings
  fails _ _ _ := False
  waits _ _ := False
  answers h := by
    cases h with
    | piece hne hread hrest => exact hread ▸ .piece hne rfl hrest
    | interrupted he hread hrest => exact hread ▸ .interrupted he hrest
    | atEnd hread => exact hread ▸ .atEnd rfl
    | reset he hread => exact hread ▸ .reset he rfl

/-! ## Places -/

namespace Stream

/-- A place in a stream: the octets that are behind it, and the descriptors that were taken. -/
structure Place where
  octets : Nat := 0
  descriptors : Nat := 0
  deriving DecidableEq

/-- The octets from a place on. -/
def octetsFrom (s : Stream) (place : Place) : Octets := s.octets.drop place.octets

/-- What follows a part of a stream comes behind what that part has from a place on. -/
theorem octetsFrom_append {front : Stream} {place : Place} (h : place.octets ≤ front.length)
    (back : Stream) : (front ++ back).octetsFrom place = front.octetsFrom place ++ back.octets := by
  rw [octetsFrom, octetsFrom, octets_append,
    List.drop_append_of_le_length (by rwa [length_octets])]

/-- A frame that a part of a stream has at a place is at that place of the stream, and ends within
the part. -/
theorem decode_front {front : Stream} {place : Place} (h : place.octets ≤ front.length)
    {limit : Nat} {frame : Frame} {rest : Octets}
    (hdec : Frame.decode limit (front.octetsFrom place) = .ok (some (frame, rest)))
    (back : Stream) :
    ∃ n, n ≤ front.length ∧ front.octets.drop n = rest ∧
      Frame.decode limit ((front ++ back).octetsFrom place) =
        .ok (some (frame, (front ++ back).octets.drop n)) := by
  obtain ⟨piece, hpiece, -⟩ := Frame.decode_consumes hdec
  have hrest : front.octets.drop (place.octets + piece.length) = rest := by
    rw [← List.drop_drop, ← octetsFrom, hpiece, List.drop_left]
  have hlength : place.octets + piece.length ≤ front.length := by
    have hle := congrArg List.length hpiece
    rw [octetsFrom, List.length_drop, length_octets, List.length_append] at hle
    omega
  refine ⟨place.octets + piece.length, hlength, hrest, ?_⟩
  rw [octetsFrom_append h, Frame.decode_append hdec, octets_append,
    List.drop_append_of_le_length (by rwa [length_octets]), hrest]

/-- The next frame of a stream, with its descriptor: a flagged frame has the first descriptor that
was not taken. -/
inductive Next (limit : Nat) (s : Stream) (place : Place) :
    Frame → Option Descriptor → Place → Prop
  | plain {frame : Frame} {n : Nat} (hn : n ≤ s.length)
      (hdec : Frame.decode limit (s.octetsFrom place) = .ok (some (frame, s.octets.drop n)))
      (hf : frame.flagged = false) : Next limit s place frame none ⟨n, place.descriptors⟩
  | flagged {frame : Frame} {d : Descriptor} {n : Nat} (hn : n ≤ s.length)
      (hdec : Frame.decode limit (s.octetsFrom place) = .ok (some (frame, s.octets.drop n)))
      (hf : frame.flagged = true) (hd : s.descriptors[place.descriptors]? = some d) :
      Next limit s place frame (some d) ⟨n, place.descriptors + 1⟩

/-- Why there is no next frame in a stream that has ended. -/
inductive Lacks (limit : Nat) (s : Stream) (place : Place) :
    Reception (Frame × Option Descriptor) → Prop
  /-- No frame can start there. -/
  | malformed {e : ChannelError} (hdec : Frame.decode limit (s.octetsFrom place) = .error e) :
      Lacks limit s place (.failed e)
  /-- There is a flagged frame, and all descriptors up to its end were taken. -/
  | missing {frame : Frame} {n : Nat} (hn : n ≤ s.length)
      (hdec : Frame.decode limit (s.octetsFrom place) = .ok (some (frame, s.octets.drop n)))
      (hf : frame.flagged = true) (hd : (descriptors (s.take n)).length ≤ place.descriptors) :
      Lacks limit s place (.failed (.violation .missingDescriptor))
  /-- The stream has ended behind a frame. -/
  | closed (hempty : s.octetsFrom place = []) : Lacks limit s place .ended
  /-- It has ended inside of a frame. -/
  | cutShort (hne : s.octetsFrom place ≠ [])
      (hdec : Frame.decode limit (s.octetsFrom place) = .ok none) :
      Lacks limit s place (.failed (.violation (.cutShort (s.length - place.octets))))

end Stream

namespace Channel

variable {τ : Type} {T : Transport τ} {A : T.Account} {s : Stream} {place : Stream.Place}
  {c c' : Channel} {t t' : τ}

/-- A channel stands at a place of a stream: it holds what has been read from there on, and the rest
is still to come. -/
inductive Stands (A : T.Account) (s : Stream) (place : Stream.Place) (c : Channel) (t : τ) : Prop
  | intro {front back : Stream} (hparts : s = front ++ back)
      (hoctets : place.octets ≤ front.length) (hbuffer : front.octetsFrom place = c.buffer)
      (hdescriptors : place.descriptors ≤ front.descriptors.length)
      (hheld : front.descriptors.drop place.descriptors = c.descriptors)
      (hcoming : c.ended = false ∧ A.comes t back ∨ c.ended = true ∧ back = [])

/-- A channel that has read nothing stands at the beginning. -/
theorem stands_fresh {limit : Nat} {reports : Bool} (h : A.comes t s) :
    Stands A s {} { limit, interruptible := reports } t :=
  .intro (List.nil_append s).symm (Nat.le_refl _) rfl (Nat.le_refl _) rfl (.inl ⟨rfl, h⟩)

/-- A transport to which the same is still to come is as good. -/
theorem Stands.of_comes (hs : Stands A s place c t)
    (h : ∀ {back : Stream}, A.comes t back → A.comes t' back) : Stands A s place c t' := by
  obtain @⟨front, back, hparts, hoctets, hbuffer, hdescriptors, hheld, hcoming⟩ := hs
  exact .intro hparts hoctets hbuffer hdescriptors hheld
    (hcoming.imp_left fun ⟨hopen, hcomes⟩ => ⟨hopen, h hcomes⟩)

/-- What a call comes to at a place: the next frame, or why there is none. A call that is
interrupted has not moved, and reads may break off behind a part of the stream that has no whole
frame. -/
inductive Tells (A : T.Account) (s : Stream) (place : Stream.Place) (limit : Nat) :
    Reception (Frame × Option Descriptor) × Channel × τ → Prop
  | next {frame : Frame} {d : Option Descriptor} {place' : Stream.Place} {c : Channel} {t : τ}
      (h : s.Next limit place frame d place') (hs : Stands A s place' c t) :
      Tells A s place limit (.item (frame, d), c, t)
  | lacks {r : Reception (Frame × Option Descriptor)} {c : Channel} {t : τ}
      (h : s.Lacks limit place r) : Tells A s place limit (r, c, t)
  | interrupted {c : Channel} {t : τ} (hs : Stands A s place c t) :
      Tells A s place limit (.failed .interrupted, c, t)
  | broken {front back : Stream} {cause : IoError} {c : Channel} {t : τ} (hs : s = front ++ back)
      (hdec : Frame.decode limit (front.octetsFrom place) = .ok none)
      (hfails : A.fails cause back t) : Tells A s place limit (.failed (.io cause), c, t)
  | dry {front back : Stream} {c : Channel} {t : τ} (hs : s = front ++ back)
      (hdec : Frame.decode limit (front.octetsFrom place) = .ok none)
      (hwaits : A.waits back t) : Tells A s place limit (.waiting, c, t)

/-- **What a channel has an answer to without a read is at its place in the stream.** -/
theorem Stands.tells (hs : Stands A s place c t)
    {answer : Reception (Frame × Option Descriptor)} (h : c.settled? = some (answer, c')) :
    Tells A s place c.limit (answer, c', t) := by
  obtain @⟨front, back, rfl, hoctets, hbuffer, hdescriptors, hheld, hcoming⟩ := hs
  -- the buffer is followed by what is still to come
  have hfrom : (front ++ back).octetsFrom place = c.buffer ++ back.octets := by
    rw [Stream.octetsFrom_append hoctets, hbuffer]
  have hframe {frame : Frame} {rest : Octets}
      (hdec : Frame.decode c.limit c.buffer = .ok (some (frame, rest))) :=
    Stream.decode_front hoctets (hbuffer ▸ hdec) back
  have hover (hc : c.ended = true) : back = [] := by
    rcases hcoming with ⟨hopen, -⟩ | ⟨-, hover⟩
    · rw [hc] at hopen
      cases hopen
    · exact hover
  cases settles_iff.1 h with
  | refused hdec =>
    refine .lacks (.malformed ?_)
    rw [hfrom]
    exact Frame.decode_append_error hdec _
  | plain hdec hf =>
    obtain ⟨n, hn, hrest, hdec'⟩ := hframe hdec
    refine .next (.plain ?_ hdec' hf) (.intro rfl hn hrest hdescriptors hheld hcoming)
    rw [List.length_append]
    omega
  | @flagged frame rest d ds hdec hf hd =>
    obtain ⟨n, hn, hrest, hdec'⟩ := hframe hdec
    rw [hd] at hheld
    have hlt : place.descriptors < front.descriptors.length := by
      have hlen := congrArg List.length hheld
      rw [List.length_drop, List.length_cons] at hlen
      omega
    have hd' : front.descriptors[place.descriptors]? = some d := by
      rw [← List.head?_drop, hheld]
      rfl
    have hds : front.descriptors.drop (place.descriptors + 1) = ds := by
      rw [← List.tail_drop, hheld]
      rfl
    refine .next (.flagged ?_ hdec' hf ?_) (.intro rfl hn hrest hlt hds hcoming)
    · rw [List.length_append]
      omega
    · rw [Stream.descriptors_append, List.getElem?_append_left hlt, hd']
  | missing hdec hf hd =>
    obtain ⟨n, hn, hrest, hdec'⟩ := hframe hdec
    refine .lacks (.missing ?_ hdec' hf ?_)
    · rw [List.length_append]
      omega
    · rw [hd, List.drop_eq_nil_iff] at hheld
      rw [List.take_append_of_le_length hn]
      refine Nat.le_trans ?_ hheld
      have hle := Stream.length_descriptors_take_le front hn
      rwa [List.take_length] at hle
  | atEnd hdec hc hempty =>
    obtain rfl := hover hc
    refine .lacks (.closed ?_)
    rw [hfrom, hempty]
    rfl
  | cutShort hdec hc hne =>
    obtain rfl := hover hc
    have hwhole : (front ++ []).octetsFrom place = c.buffer := by
      rw [hfrom, Stream.octets_nil, List.append_nil]
    have hlen : c.buffer.length = (front ++ []).length - place.octets := by
      rw [← hwhole, Stream.octetsFrom, List.length_drop, Stream.length_octets]
    rw [hlen]
    refine .lacks (.cutShort ?_ ?_)
    · rwa [hwhole]
    · rwa [hwhole]

/-- **What a read brings is held.** A read that fails the call was interrupted, or the reads break
off. -/
theorem Stands.absorb (hs : Stands A s place c t) (h : c.settled? = none) {r : Reading}
    {failure : Option ChannelError} (hread : T.read t chunkSize = (some r, t'))
    (habsorb : c.absorb r = (failure, c')) :
    Stands A s place c' t' ∧ (failure = none ∨ failure = some .interrupted) ∨
      ∃ cause front back, failure = some (.io cause) ∧ s = front ++ back ∧
        Frame.decode c.limit (front.octetsFrom place) = .ok none ∧ A.fails cause back t' := by
  obtain ⟨hdec, hopen⟩ := settled?_eq_none.1 h
  obtain @⟨front, back, rfl, hoctets, hbuffer, hdescriptors, hheld, hcoming⟩ := hs
  have hanswers := A.answers (hcoming.resolve_right fun hended => by
    rw [hopen] at hended
    cases hended.1).2
  rw [hread] at hanswers
  cases hanswers with
  | @piece piece rest _ hne hs hrest =>
    subst hs
    rw [absorb_data (by rwa [Ne, Stream.octets_eq_nil])] at habsorb
    cases habsorb
    refine .inl ⟨.intro (List.append_assoc ..).symm ?_ ?_ ?_ ?_ (.inl ⟨hopen, hrest⟩), .inl rfl⟩
    · rw [List.length_append]
      omega
    · rw [Stream.octetsFrom_append hoctets, hbuffer]
    · rw [Stream.descriptors_append, List.length_append]
      omega
    · rw [← hheld, Stream.descriptors_append, List.drop_append_of_le_length hdescriptors]
  | interrupted he hrest =>
    rw [absorb_interrupted he] at habsorb
    cases habsorb
    refine .inl ⟨.intro rfl hoctets hbuffer hdescriptors hheld (.inl ⟨hopen, hrest⟩), ?_⟩
    cases hreport : c.interruptible with
    | true => exact .inr (if_pos rfl)
    | false => exact .inl (if_neg nofun)
  | atEnd hs =>
    rw [absorb_atEnd] at habsorb
    cases habsorb
    exact .inl ⟨.intro rfl hoctets hbuffer hdescriptors hheld (.inr ⟨rfl, hs⟩), .inl rfl⟩
  | reset he hs =>
    rw [absorb_reset he] at habsorb
    cases habsorb
    exact .inl ⟨.intro rfl hoctets hbuffer hdescriptors hheld (.inr ⟨rfl, hs⟩), .inl rfl⟩
  | @broken _ cause _ hr he he' hfails =>
    refine .inr ⟨cause, front, back, ?_, rfl, by rwa [hbuffer], hfails⟩
    simp only [Channel.absorb, hr] at habsorb
    cases habsorb
    rfl

/-- A read that waits for ever comes behind a part of the stream. -/
theorem Stands.dry (hs : Stands A s place c t) (h : c.settled? = none)
    (hread : T.read t chunkSize = (none, t')) :
    ∃ front back, s = front ++ back ∧
      Frame.decode c.limit (front.octetsFrom place) = .ok none ∧ A.waits back t' := by
  obtain ⟨hdec, hopen⟩ := settled?_eq_none.1 h
  obtain @⟨front, back, rfl, hoctets, hbuffer, hdescriptors, hheld, hcoming⟩ := hs
  have hanswers := A.answers (hcoming.resolve_right fun hended => by
    rw [hopen] at hended
    cases hended.1).2
  rw [hread] at hanswers
  cases hanswers with
  | dry hwaits => exact ⟨front, back, rfl, by rwa [hbuffer], hwaits⟩

theorem limit_settled {answer : Reception (Frame × Option Descriptor)}
    (h : c.settled? = some (answer, c')) : c'.limit = c.limit := by
  cases settles_iff.1 h <;> rfl

theorem limit_absorb {r : Reading} {failure : Option ChannelError}
    (h : c.absorb r = (failure, c')) : c'.limit = c.limit := by
  cases failure with
  | some e => rw [(absorb_eq_some h).1]
  | none => rcases absorb_eq_none h with ⟨_, _, _, rfl⟩ | ⟨_, rfl⟩ | ⟨_, _, rfl⟩ <;> rfl

/-- No call changes the longest body that is accepted. -/
theorem Fetches.limit_eq {out : Reception (Frame × Option Descriptor) × Channel × τ}
    (h : Fetches T c t out) : out.2.1.limit = c.limit := by
  induction h with
  | settled h => exact limit_settled h
  | dry => rfl
  | broken _ _ habsorb => exact limit_absorb habsorb
  | onward _ _ habsorb _ ih => exact ih.trans (limit_absorb habsorb)

/-- **A call is told by its place what it comes to.** -/
theorem Fetches.tells {out : Reception (Frame × Option Descriptor) × Channel × τ}
    (h : Fetches T c t out) (hs : Stands A s place c t) : Tells A s place c.limit out := by
  induction h with
  | settled h => exact hs.tells h
  | dry h hread =>
    obtain ⟨front, back, hparts, hdec, hwaits⟩ := hs.dry h hread
    exact .dry hparts hdec hwaits
  | broken h hread habsorb =>
    rcases hs.absorb h hread habsorb with
      ⟨hs', hnone | hsome⟩ | ⟨cause, front, back, hsome, hparts, hdec, hfails⟩
    · cases hnone
    · cases hsome
      exact .interrupted hs'
    · cases hsome
      exact .broken hparts hdec hfails
  | onward h hread habsorb _ ih =>
    rcases hs.absorb h hread habsorb with ⟨hs', -⟩ | ⟨cause, _, _, hsome, -⟩
    · rw [← limit_absorb habsorb]
      exact ih hs'
    · cases hsome

end Channel

end Overseer
