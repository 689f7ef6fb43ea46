import Overseer.Proofs.Channel.Link
import Overseer.Proofs.Frame.Stability

/-!
# Reliable delivery, in order

What one end sends the other receives: every item once, in the order in which they were sent, each
with its own descriptor, and then the end (`delivery_in_order`).

The invariant is a conservation law (`Holds`): what the reader's channel holds, what is in flight
and what the sender has not written yet make up, one behind the other, the streams of the items that
have not been received. A read and a write move a part from one place to the next. A call takes the
first item away (`Fetches.finds`), for its frame is the first that can be read off the buffer, and
its descriptor the first in the queue.
-/

namespace Overseer

/-! ## What becomes of a link -/

/-- What calls of the reader leave alone, and what they use up. -/
structure Link.Later (l l' : Link) : Prop where
  closed_eq : l'.closed = l.closed
  writes_eq : l'.writes = l.writes
  delays_le : l'.delays ≤ l.delays

namespace Link

/-- Nothing is used up where nothing is done. -/
theorem Later.refl (l : Link) : l.Later l := ⟨rfl, rfl, Nat.le_refl _⟩

theorem Later.trans {l l' l'' : Link} (h : l.Later l') (h' : l'.Later l'') : l.Later l'' :=
  ⟨h'.closed_eq.trans h.closed_eq, h'.writes_eq.trans h.writes_eq,
    Nat.le_trans h'.delays_le h.delays_le⟩

/-- What a read of a link comes to. -/
inductive Reads (l : Link) : Option Reading → Link → Prop
  /-- It brings the front part of the queue. -/
  | brings {front back : Stream} {reads : List ReadTurn} (hne : front ≠ [])
      (hqueue : l.queue = front ++ back) (hle : delays { reads } ≤ l.delays) :
      Reads l (some (.data front.octets front.descriptors)) { l with queue := back, reads }
  /-- It finds the end. -/
  | ends {reads : List ReadTurn} (hqueue : l.queue = []) (hclosed : l.closed = true)
      (hle : delays { reads } ≤ l.delays) : Reads l (some .atEnd) { l with reads }
  /-- It finds nothing yet. -/
  | empty {reads : List ReadTurn} (hqueue : l.queue = []) (hclosed : l.closed = false)
      (hle : delays { reads } ≤ l.delays) : Reads l none { l with reads }
  /-- It is interrupted. -/
  | interrupted {reads : List ReadTurn} (cause : Interruption)
      (hlt : delays { reads } < l.delays) : Reads l (some (.failure cause.1)) { l with reads }
  /-- It comes later. -/
  | paused {reads : List ReadTurn} (hlt : delays { reads } < l.delays) :
      Reads l none { l with reads }

/-- A delivery brings something, or finds the queue empty. -/
theorem reads_deliver (l : Link) {reads : List ReadTurn} {n : Nat} (hn : n ≠ 0)
    (hle : delays { reads } ≤ l.delays) :
    Reads l ({ l with reads }.deliver n).1 ({ l with reads }.deliver n).2 := by
  unfold deliver
  split
  · next hempty =>
    have hqueue : l.queue = [] := List.isEmpty_iff.1 hempty
    split
    · next hclosed => exact .ends hqueue hclosed hle
    · next hclosed => exact .empty hqueue (Bool.eq_false_iff.2 hclosed) hle
  · next hempty =>
    refine .brings ?_ (List.take_append_drop n l.queue).symm hle
    intro htake
    rw [List.take_eq_nil_iff] at htake
    exact hempty (List.isEmpty_iff.2 (htake.resolve_left hn))

/-- Every read comes to one of these. -/
theorem reads_read (l : Link) {n : Nat} (hn : n ≠ 0) : Reads l (l.read n).1 (l.read n).2 := by
  unfold read
  split
  · exact reads_deliver l hn (Nat.le_refl _)
  · next more reads hreads =>
    refine reads_deliver l (by omega) ?_
    rw [delays, delays, hreads, List.countP_cons]
    exact Nat.le_add_right ..
  · next cause reads hreads =>
    refine .interrupted cause ?_
    rw [delays, delays, hreads, List.countP_cons]
    exact Nat.lt_succ_self _
  · next reads hreads =>
    refine .paused ?_
    rw [delays, delays, hreads, List.countP_cons]
    exact Nat.lt_succ_self _

/-- A read of the reader comes to one of these. -/
theorem reads_of_read {l l' : Link} {out : Option Reading}
    (h : transport.read l Channel.chunkSize = (out, l')) : Reads l out l' := by
  have hreads := reads_read l (show Channel.chunkSize ≠ 0 by decide)
  rwa [show l.read Channel.chunkSize = (out, l') from h] at hreads

/-- A read uses up what it uses up. -/
theorem Reads.later {l l' : Link} {out : Option Reading} (h : Reads l out l') : l.Later l' := by
  cases h with
  | brings _ _ hle | ends _ _ hle | empty _ _ hle => exact ⟨rfl, rfl, hle⟩
  | interrupted _ hlt | paused hlt => exact ⟨rfl, rfl, Nat.le_of_lt hlt⟩

end Link

namespace Channel

/-- A call uses up what its reads use up. -/
theorem Fetches.later {c : Channel} {l : Link}
    {out : Reception (Frame × Option Descriptor) × Channel × Link}
    (h : Fetches Link.transport c l out) : l.Later out.2.2 := by
  induction h with
  | settled _ => exact .refl _
  | dry _ hread | broken _ hread _ => exact (Link.reads_of_read hread).later
  | onward _ hread _ _ ih => exact (Link.reads_of_read hread).later.trans ih

/-! ## Conservation -/

/-- **What is sent is somewhere.** What the channel holds, what is in flight and what is unwritten
make up the streams of the items that are not received yet. -/
structure Holds (limit : Nat) (c : Channel) (l : Link) (unwritten : Stream) (items : List Item) :
    Prop where
  limit_eq : c.limit = limit
  /-- The reader admits the items. -/
  fits : ∀ item ∈ items, (∃ bound xs, item.encode bound = .ok xs) ∧ item.size ≤ limit
  /-- Nothing is lost, added or moved. -/
  parts : ∃ held : Stream, held.octets = c.buffer ∧ held.descriptors = c.descriptors ∧
    held ++ (l.queue ++ unwritten) = items.flatMap Item.stream
  /-- A closed end writes no more. -/
  written : l.closed = true → unwritten = []
  /-- The end comes behind everything else. -/
  ended : c.ended = true → l.closed = true ∧ l.queue = []

variable {limit : Nat} {c c' : Channel} {l l' : Link} {unwritten : Stream} {items : List Item}

/-- A channel that holds all of an item answers with it, and holds what is left. -/
theorem Holds.settled_of_complete {item : Item} {rest : List Item}
    (h : Holds limit c l unwritten (item :: rest)) (more : Stream)
    (hbuffer : (item.stream ++ more).octets = c.buffer)
    (hdescriptors : (item.stream ++ more).descriptors = c.descriptors)
    (hmore : more ++ (l.queue ++ unwritten) = rest.flatMap Item.stream) :
    ∃ c', Holds limit c' l unwritten rest ∧
      c.settled? = some (.item (item.frame, item.descriptor), c') := by
  obtain ⟨⟨bound, xs, hencode⟩, hsize⟩ := h.fits item (List.mem_cons_self ..)
  rw [Stream.octets_append, Item.stream, Stream.octets_tagged] at hbuffer
  rw [Stream.descriptors_append, Item.stream,
    Stream.descriptors_tagged item.octets_ne_nil] at hdescriptors
  have hdec : Frame.decode c.limit c.buffer = .ok (some (item.frame, more.octets)) := by
    rw [← hbuffer, h.limit_eq]
    exact Item.decode_octets hencode hsize _
  have hfits : ∀ item ∈ rest, (∃ bound xs, item.encode bound = .ok xs) ∧ item.size ≤ limit :=
    fun item hmem => h.fits item (List.mem_cons_of_mem _ hmem)
  cases hd : item.descriptor with
  | none =>
    have hflag : item.frame.flagged = false := by rw [Item.flagged_frame, hd]; rfl
    rw [hd] at hdescriptors
    refine ⟨_, ?_, settles_iff.2 (.plain hdec hflag)⟩
    exact ⟨h.limit_eq, hfits, ⟨more, rfl, hdescriptors, hmore⟩, h.written, h.ended⟩
  | some d =>
    have hflag : item.frame.flagged = true := by rw [Item.flagged_frame, hd]; rfl
    rw [hd] at hdescriptors
    refine ⟨_, ?_, settles_iff.2 (.flagged hdec hflag hdescriptors.symm)⟩
    exact ⟨h.limit_eq, hfits, ⟨more, rfl, rfl, hmore⟩, h.written, h.ended⟩

/-- A channel that holds a part of an item only has no answer. -/
theorem Holds.settled_of_partial {item : Item} {rest : List Item} {held tail : Stream}
    (h : Holds limit c l unwritten (item :: rest)) (hbuffer : held.octets = c.buffer)
    (hitem : item.stream = held ++ tail) (htail : tail ≠ [])
    (hmore : l.queue ++ unwritten = tail ++ rest.flatMap Item.stream) : c.settled? = none := by
  obtain ⟨⟨bound, xs, hencode⟩, hsize⟩ := h.fits item (List.mem_cons_self ..)
  have hdec : Frame.decode c.limit c.buffer = .ok none := by
    have hoctets : item.octets = c.buffer ++ tail.octets := by
      rw [← hbuffer, ← Stream.octets_append, ← hitem, Item.stream, Stream.octets_tagged]
    have hwhole := Item.decode_octets hencode hsize []
    rw [List.append_nil, hoctets, ← h.limit_eq] at hwhole
    refine Frame.decode_of_partial hwhole (List.length_pos_iff.2 ?_)
    rwa [Ne, Stream.octets_eq_nil]
  cases hended : c.ended with
  | false => exact settled?_eq_none.2 ⟨hdec, hended⟩
  | true =>
    -- the end comes behind the rest of the item
    obtain ⟨hclosed, hqueue⟩ := h.ended hended
    rw [hqueue, h.written hclosed, List.append_nil] at hmore
    exact absurd (List.append_eq_nil_iff.1 hmore.symm).1 htail

/-- **The first item is the first that is read.** A channel answers with it once it holds all of it;
with the end if there is none and the end has been met; and else not at all. -/
theorem Holds.settled (h : Holds limit c l unwritten items) :
    (∃ item rest c', items = item :: rest ∧ Holds limit c' l unwritten rest ∧
      c.settled? = some (.item (item.frame, item.descriptor), c')) ∨
    (items = [] ∧ l.closed = true ∧ c.settled? = some (.ended, c)) ∨
    (c.settled? = none ∧ (items = [] ∨ l.queue ++ unwritten ≠ [])) := by
  obtain ⟨held, hbuffer, hdescriptors, hparts⟩ := h.parts
  cases items with
  | nil =>
    obtain ⟨rfl, -⟩ := List.append_eq_nil_iff.1 hparts
    have hdec : Frame.decode c.limit c.buffer = .ok none := by
      rw [← hbuffer]
      rfl
    cases hended : c.ended with
    | false => exact .inr (.inr ⟨settled?_eq_none.2 ⟨hdec, hended⟩, .inl rfl⟩)
    | true =>
      exact .inr (.inl ⟨rfl, (h.ended hended).1, settles_iff.2 (.atEnd hdec hended hbuffer.symm)⟩)
  | cons item rest =>
    rw [List.flatMap_cons] at hparts
    rcases List.append_eq_append_iff.1 hparts with ⟨tail, hitem, hmore⟩ | ⟨more, rfl, hmore⟩
    · by_cases htail : tail = []
      · subst htail
        rw [List.append_nil] at hitem
        subst hitem
        obtain ⟨c', h', hsettled⟩ := h.settled_of_complete []
          (by rwa [List.append_nil]) (by rwa [List.append_nil]) hmore
        exact .inl ⟨item, rest, c', rfl, h', hsettled⟩
      · refine .inr (.inr ⟨h.settled_of_partial hbuffer hitem htail hmore, .inr ?_⟩)
        rw [hmore]
        exact List.append_ne_nil_of_left_ne_nil htail _
    · obtain ⟨c', h', hsettled⟩ := h.settled_of_complete more hbuffer hdescriptors hmore.symm
      exact .inl ⟨item, rest, c', rfl, h', hsettled⟩

/-- What a read brings moves from the queue to the channel. A read that fails a call is a delay. -/
theorem Holds.absorb {r : Reading} {failure : Option ChannelError}
    (h : Holds limit c l unwritten items) (hended : c.ended = false)
    (hread : Link.Reads l (some r) l') (habsorb : c.absorb r = (failure, c')) :
    Holds limit c' l' unwritten items ∧
      ∀ e, failure = some e → e.ofRead = true ∧ l'.delays < l.delays := by
  obtain ⟨held, hbuffer, hdescriptors, hparts⟩ := h.parts
  have hopen : c.ended = true → l'.closed = true ∧ l'.queue = [] := by
    intro hc
    rw [hended] at hc
    cases hc
  cases hread with
  | @brings front back reads hne hqueue hle =>
    rw [absorb_data (by rwa [Ne, Stream.octets_eq_nil])] at habsorb
    cases habsorb
    refine ⟨⟨h.limit_eq, h.fits, ⟨held ++ front, ?_, ?_, ?_⟩, h.written, hopen⟩, nofun⟩
    · rw [Stream.octets_append, hbuffer]
    · rw [Stream.descriptors_append, hdescriptors]
    · rw [← hparts, hqueue, List.append_assoc, List.append_assoc]
  | ends hqueue hclosed hle =>
    rw [absorb_atEnd] at habsorb
    cases habsorb
    exact ⟨⟨h.limit_eq, h.fits, h.parts, h.written, fun _ => ⟨hclosed, hqueue⟩⟩, nofun⟩
  | interrupted cause hlt =>
    rw [absorb_interrupted cause.2] at habsorb
    cases habsorb
    refine ⟨⟨h.limit_eq, h.fits, h.parts, h.written, hopen⟩, fun e hfail => ⟨?_, hlt⟩⟩
    split at hfail <;> cases hfail
    rfl

/-- A read without an answer is a delay, or finds the queue of an open link empty. -/
theorem Holds.wait (h : Holds limit c l unwritten items) (hended : c.ended = false)
    (hread : Link.Reads l none l') :
    Holds limit c l' unwritten items ∧
      (l'.delays < l.delays ∨ l.closed = false ∧ l.queue = []) := by
  have hopen : c.ended = true → l'.closed = true ∧ l'.queue = [] := by
    intro hc
    rw [hended] at hc
    cases hc
  cases hread with
  | empty hqueue hclosed hle =>
    exact ⟨⟨h.limit_eq, h.fits, h.parts, h.written, hopen⟩, .inr ⟨hclosed, hqueue⟩⟩
  | paused hlt => exact ⟨⟨h.limit_eq, h.fits, h.parts, h.written, hopen⟩, .inl hlt⟩

/-- What a call finds that is made of a link: the next item, the end behind the last one, or a
delay, unless all that there can be has been received. -/
inductive Finds (limit : Nat) (unwritten : Stream) (l : Link) :
    List Item → Reception (Frame × Option Descriptor) × Channel × Link → Prop
  | next {item : Item} {rest : List Item} {c' : Channel} {l' : Link}
      (h : Holds limit c' l' unwritten rest) :
      Finds limit unwritten l (item :: rest) (.item (item.frame, item.descriptor), c', l')
  | closed {c' : Channel} {l' : Link} (h : Holds limit c' l' unwritten [])
      (hclosed : l.closed = true) : Finds limit unwritten l [] (.ended, c', l')
  | delayed {items : List Item} {r : Reception (Frame × Option Descriptor)} {c' : Channel}
      {l' : Link} (h : Holds limit c' l' unwritten items) (hr : r.completed = false)
      (hlt : l'.delays < l.delays ∨ l.closed = false ∧ (items = [] ∨ unwritten ≠ [])) :
      Finds limit unwritten l items (r, c', l')

/-- What a later call finds, an earlier one does. -/
theorem Finds.earlier {out : Reception (Frame × Option Descriptor) × Channel × Link}
    (h : Finds limit unwritten l' items out) (hl : l.Later l') :
    Finds limit unwritten l items out := by
  cases h with
  | next h => exact .next h
  | closed h hclosed => exact .closed h (hl.closed_eq ▸ hclosed)
  | delayed h hr hlt =>
    rw [hl.closed_eq] at hlt
    exact .delayed h hr (hlt.imp_left fun hlt => Nat.lt_of_lt_of_le hlt hl.delays_le)

/-- **A call finds the next item**, if it does not find a delay. -/
theorem Fetches.finds {out : Reception (Frame × Option Descriptor) × Channel × Link}
    (hf : Fetches Link.transport c l out) (h : Holds limit c l unwritten items) :
    Finds limit unwritten l items out := by
  have hpending : ∀ {c : Channel} {l : Link}, Holds limit c l unwritten items →
      c.settled? = none → c.ended = false ∧ (items = [] ∨ l.queue ++ unwritten ≠ []) := by
    intro c l h hnone
    refine ⟨?_, ?_⟩
    · cases hended : c.ended with
      | false => rfl
      | true => exact absurd hnone (settled?_of_ended hended)
    · rcases h.settled with ⟨_, _, _, -, -, hsome⟩ | ⟨-, -, hsome⟩ | ⟨-, hleft⟩
      · rw [hnone] at hsome
        cases hsome
      · rw [hnone] at hsome
        cases hsome
      · exact hleft
  induction hf with
  | settled hsettled =>
    rcases h.settled with ⟨item, rest, c', rfl, h', hsome⟩ | ⟨rfl, hclosed, hsome⟩ | ⟨hnone, -⟩
    · rw [hsettled] at hsome
      cases hsome
      exact .next h'
    · rw [hsettled] at hsome
      cases hsome
      exact .closed h hclosed
    · rw [hsettled] at hnone
      cases hnone
  | dry hnone hread =>
    obtain ⟨hended, hleft⟩ := hpending h hnone
    obtain ⟨h', hlt | ⟨hclosed, hqueue⟩⟩ := h.wait hended (Link.reads_of_read hread)
    · exact .delayed h' rfl (.inl hlt)
    · rw [hqueue, List.nil_append] at hleft
      exact .delayed h' rfl (.inr ⟨hclosed, hleft⟩)
  | broken hnone hread habsorb =>
    obtain ⟨hended, -⟩ := hpending h hnone
    obtain ⟨h', hfail⟩ := h.absorb hended (Link.reads_of_read hread) habsorb
    obtain ⟨he, hlt⟩ := hfail _ rfl
    refine .delayed h' ?_ (.inl hlt)
    rw [Reception.completed, he]
    rfl
  | onward hnone hread habsorb _ ih =>
    obtain ⟨hended, -⟩ := hpending h hnone
    obtain ⟨h', -⟩ := h.absorb hended (Link.reads_of_read hread) habsorb
    exact (ih h').earlier (Link.reads_of_read hread).later

end Channel

/-! ## Sessions -/

namespace Session

open Channel (Holds Finds)

/-- A session in which `items` are still to be received and `more` calls to be made behind them:
what has been received and what is expected yet make up what was expected. -/
structure Expects (limit : Nat) (expected : List (Reception Item)) (further : List Ask)
    (unwritten : Stream) (s : Session) (items : List Item) (more : List Ask) : Prop where
  holds : Holds limit s.reader s.link unwritten items
  asks_eq : s.asks = items.map Item.ask ++ more
  log_append : s.log ++ (items.map .item ++ more.map fun _ => .ended) = expected
  /-- While the sender's end is open none of the further calls is through. -/
  open_eq : s.link.closed = false → more = further

/-- A session on its way. -/
def Sound (limit : Nat) (expected : List (Reception Item)) (further : List Ask)
    (unwritten : Stream) (s : Session) : Prop :=
  ∃ items more, Expects limit expected further unwritten s items more

variable {limit : Nat} {expected : List (Reception Item)} {further : List Ask}
  {unwritten : Stream} {s s' : Session}

/-- A turn is a call for the next frame, and the next call comes next if it is through. -/
theorem turn_of_cons {ask : Ask} {asks : List Ask} (h : s.asks = ask :: asks) :
    ∃ r reader link, Channel.Fetches Link.transport s.reader s.link (r, reader, link) ∧
      (r.completed = true →
        s.turn = { s with link, reader, asks, log := s.log ++ [ask.accept r] }) ∧
      (r.completed = false → s.turn = { s with link, reader }) := by
  obtain ⟨link, reader, asks', schedule, log⟩ := s
  cases h
  generalize hout : Channel.nextFrame Link.transport reader link = out
  obtain ⟨r, reader', link'⟩ := out
  refine ⟨r, reader', link', (Channel.fetches_iff Link.transport_lawful).2 hout, ?_⟩
  simp only [turn, Channel.call_eq, hout, Ask.completed_accept]
  exact ⟨fun hr => if_pos hr, fun hr => if_neg (Bool.eq_false_iff.1 hr)⟩

/-- A turn uses up what its call uses up. -/
theorem turn_later (s : Session) : s.link.Later s.turn.link := by
  cases hasks : s.asks with
  | nil =>
    rw [turn, hasks]
    exact .refl _
  | cons ask asks =>
    obtain ⟨r, reader, link, hfetch, hthrough, hagain⟩ := turn_of_cons hasks
    cases hr : r.completed with
    | true =>
      rw [hthrough hr]
      exact hfetch.later
    | false =>
      rw [hagain hr]
      exact hfetch.later

theorem turns_later (n : Nat) (s : Session) : s.link.Later (turns n s).link := by
  induction n generalizing s with
  | zero => exact .refl _
  | succ n ih => exact (turn_later s).trans (ih s.turn)

/-- **A turn moves the session on**: a call is through, a delay is used up, or what can be received
has been. -/
theorem Expects.turn {items : List Item} {more : List Ask}
    (h : Expects limit expected further unwritten s items more) :
    Sound limit expected further unwritten s.turn ∧
      (s.turn.log.length = s.log.length + 1 ∨
        s.turn.log = s.log ∧ (s.turn.link.delays < s.link.delays ∨
          items = [] ∧ more = [] ∨
          s.link.closed = false ∧ (items = [] ∨ unwritten ≠ []))) := by
  cases hasks : s.asks with
  | nil =>
    have hnone := h.asks_eq
    rw [hasks] at hnone
    obtain ⟨hitems, hmore⟩ := List.append_eq_nil_iff.1 hnone.symm
    rw [Session.turn, hasks]
    exact ⟨⟨items, more, h⟩, .inr ⟨rfl, .inr (.inl ⟨List.map_eq_nil_iff.1 hitems, hmore⟩)⟩⟩
  | cons ask asks =>
    obtain ⟨r, reader, link, hfetch, hthrough, hagain⟩ := turn_of_cons hasks
    have hlog := h.log_append
    have hrest := h.asks_eq
    rw [hasks] at hrest
    cases hfetch.finds h.holds with
    | @next item rest _ _ hnext =>
      -- the call is the one that is meant for the item
      obtain ⟨rfl, rfl⟩ := List.cons.inj hrest
      rw [hthrough rfl, Item.accept_frame]
      refine ⟨⟨rest, more, hnext, rfl, ?_, fun hopen => ?_⟩, .inl List.length_append⟩
      · rw [← hlog, List.append_assoc]
        rfl
      · exact h.open_eq (hfetch.later.closed_eq ▸ hopen)
    | closed hend hclosed =>
      cases more with
      | nil => cases hrest
      | cons ask' more =>
        obtain ⟨rfl, rfl⟩ := List.cons.inj hrest
        rw [hthrough rfl]
        refine ⟨⟨[], asks, hend, rfl, ?_, fun hopen => ?_⟩, .inl List.length_append⟩
        · rw [← hlog, List.append_assoc]
          cases ask <;> rfl
        · rw [← hfetch.later.closed_eq, show link.closed = false from hopen] at hclosed
          cases hclosed
    | delayed hheld hr hlt =>
      rw [hagain hr]
      refine ⟨⟨items, more, hheld, h.asks_eq, hlog, fun hopen => ?_⟩, .inr ⟨rfl, ?_⟩⟩
      · exact h.open_eq (hfetch.later.closed_eq ▸ hopen)
      · rcases hlt with hlt | hwait
        · exact .inl hlt
        · exact .inr (.inr hwait)

/-- What is logged is a front part of what is expected. -/
theorem Sound.log_isPrefix (h : Sound limit expected further unwritten s) : s.log <+: expected := by
  obtain ⟨items, more, h⟩ := h
  exact ⟨_, h.log_append⟩

/-- A turn keeps a session on its way. -/
theorem Sound.turn (h : Sound limit expected further unwritten s) :
    Sound limit expected further unwritten s.turn := by
  obtain ⟨items, more, h⟩ := h
  exact h.turn.1

theorem Sound.turns (h : Sound limit expected further unwritten s) (n : Nat) :
    Sound limit expected further unwritten (turns n s) := by
  induction n generalizing s with
  | zero => exact h
  | succ n ih => exact ih h.turn

/-- The log never gets shorter. -/
theorem Sound.length_log_turn (h : Sound limit expected further unwritten s) :
    s.log.length ≤ s.turn.log.length := by
  obtain ⟨items, more, h⟩ := h
  rcases h.turn.2 with hlen | ⟨hlog, -⟩
  · omega
  · exact Nat.le_of_eq (congrArg List.length hlog).symm

theorem Sound.length_log_turns (h : Sound limit expected further unwritten s) (n : Nat) :
    s.log.length ≤ (Session.turns n s).log.length := by
  induction n generalizing s with
  | zero => exact Nat.le_refl _
  | succ n ih => exact Nat.le_trans h.length_log_turn (ih h.turn)

/-- When everything is written, a turn gets a call through or uses up a delay, unless all the calls
are through, or those for the items while the sender's end is open. -/
theorem Sound.progress_turn (h : Sound limit expected further [] s) :
    s.log.length + 1 + s.turn.link.delays ≤ s.turn.log.length + s.link.delays ∨
      expected.length ≤ s.log.length + if s.link.closed then 0 else further.length := by
  obtain ⟨items, more, h⟩ := h
  have hlen := congrArg List.length h.log_append
  simp only [List.length_append, List.length_map] at hlen
  rcases h.turn.2 with hthrough | ⟨hlog, hlt | ⟨rfl, rfl⟩ | ⟨hopen, hitems | hleft⟩⟩
  · have hle := (turn_later s).delays_le
    omega
  · rw [hlog]
    omega
  · simp only [List.length_nil] at hlen
    omega
  · have hmore := h.open_eq hopen
    subst hmore
    rw [hitems, List.length_nil] at hlen
    rw [hopen, if_neg Bool.false_ne_true]
    omega
  · exact absurd rfl hleft

/-- **Nothing is lost**: with turns enough for the delays, all the calls get through, and those for
the items also while the sender's end is open. -/
theorem Sound.progress (h : Sound limit expected further [] s) (n : Nat) :
    s.log.length + n + (Session.turns n s).link.delays ≤
        (Session.turns n s).log.length + s.link.delays ∨
      expected.length ≤
        (Session.turns n s).log.length + if s.link.closed then 0 else further.length := by
  induction n generalizing s with
  | zero => exact .inl (Nat.le_refl _)
  | succ n ih =>
    have hmono := h.turn.length_log_turns n
    have hsame := (turn_later s).closed_eq
    rcases h.progress_turn with hstep | hall
    · rcases ih h.turn with hrest | hall
      · refine .inl ?_
        rw [Session.turns]
        omega
      · rw [hsame] at hall
        exact .inr hall
    · refine .inr (Nat.le_trans hall (Nat.add_le_add_right ?_ _))
      exact Nat.le_trans h.length_log_turn hmono

/-! ## Writes -/

variable {xs : Octets} {d : Option Descriptor} {result : Except IoError Nat}

/-- What the reader does in front of a write uses up what its calls use up. -/
theorem interlude_later (s : Session) : s.link.Later s.interlude.link :=
  turns_later (s.schedule.headD 0) { s with schedule := s.schedule.tail }

/-- A write is a write of the link, behind what the reader does. -/
theorem write_eq (h : transport.write s xs d = (result, s')) :
    s.interlude.link.write xs d = (result, s'.link) ∧
      ∃ link, s' = { s.interlude with link } := by
  cases h
  exact ⟨rfl, _, rfl⟩

/-- The sender's transport keeps what a transport promises. -/
theorem transport_lawful : transport.Lawful where
  inflow_read _ _ _ _ h _ := by cases h
  write_le _ _ _ _ _ h := Link.transport_lawful.write_le _ _ _ _ _ (write_eq h).1
  stalls_write s _ _ _ _ h := by
    have hle := Link.transport_lawful.stalls_write _ _ _ _ _ (write_eq h).1
    exact Nat.le_trans hle (Nat.le_of_eq (congrArg List.length (interlude_later s).writes_eq))
  stalls_interrupted s _ _ _ _ h he := by
    have hlt := Link.transport_lawful.stalls_interrupted _ _ _ _ _ (write_eq h).1 he
    exact Nat.lt_of_lt_of_eq hlt (congrArg List.length (interlude_later s).writes_eq)

/-- What is written moves into flight. -/
theorem Sound.append {front rest : Stream}
    (h : Sound limit expected further (front ++ rest) s) (hopen : s.link.closed = false)
    (writes : List WriteTurn) :
    Sound limit expected further rest
      { s with link := { s.link with queue := s.link.queue ++ front, writes } } := by
  obtain ⟨items, more, h⟩ := h
  obtain ⟨held, hbuffer, hdescriptors, hparts⟩ := h.holds.parts
  refine ⟨items, more, ⟨h.holds.limit_eq, h.holds.fits, ⟨held, hbuffer, hdescriptors, ?_⟩, ?_, ?_⟩,
    h.asks_eq, h.log_append, h.open_eq⟩
  · rw [← hparts, List.append_assoc]
  · intro hclosed
    rw [show s.link.closed = true from hclosed] at hopen
    cases hopen
  · intro hended
    rw [(h.holds.ended hended).1] at hopen
    cases hopen

/-- **A write takes a front part of what is offered, or is interrupted.** Either way the session
stays on its way, and the descriptor goes with the first octet. -/
theorem Sound.write (h : Sound limit expected further (Stream.tagged xs d ++ unwritten) s)
    (hopen : s.link.closed = false) (hne : xs ≠ [])
    (hwrite : transport.write s xs d = (result, s')) :
    s'.link.closed = false ∧
      ((∃ n, n ≠ 0 ∧ result = .ok n ∧
          Sound limit expected further (Stream.tagged (xs.drop n) none ++ unwritten) s') ∨
        (∃ e, e.kind = .interrupted ∧ result = .error e ∧
          Sound limit expected further (Stream.tagged xs d ++ unwritten) s')) := by
  have hbefore : Sound limit expected further (Stream.tagged xs d ++ unwritten) s.interlude := by
    obtain ⟨items, more, h⟩ := h
    have h' : Sound limit expected further (Stream.tagged xs d ++ unwritten)
        { s with schedule := s.schedule.tail } :=
      ⟨items, more, h.holds, h.asks_eq, h.log_append, h.open_eq⟩
    exact h'.turns _
  have hopen' : s.interlude.link.closed = false := (interlude_later s).closed_eq.trans hopen
  obtain ⟨hlink, link, rfl⟩ := write_eq hwrite
  generalize s.interlude = s₀ at hbefore hopen' hlink
  rw [Link.write] at hlink
  split at hlink
  · next hwrites =>
    cases hlink
    refine ⟨hopen', .inl ⟨xs.length, fun hlen => hne (List.length_eq_zero_iff.1 hlen), rfl, ?_⟩⟩
    rw [List.drop_length, Stream.tagged_nil, List.nil_append]
    exact hbefore.append hopen' _
  · next more writes hwrites =>
    cases hlink
    refine ⟨hopen', .inl ⟨min (more + 1) xs.length, ?_, rfl, ?_⟩⟩
    · have hpos := List.length_pos_iff.2 hne
      omega
    · have hdrop : xs.drop (min (more + 1) xs.length) = xs.drop (more + 1) := by
        rcases Nat.le_total (more + 1) xs.length with hle | hle
        · rw [Nat.min_eq_left hle]
        · rw [Nat.min_eq_right hle, List.drop_length, List.drop_eq_nil_of_le hle]
      rw [← Stream.tagged_cut xs d (Nat.succ_ne_zero more), List.append_assoc] at hbefore
      rw [hdrop]
      exact hbefore.append hopen' writes
  · next cause writes hwrites =>
    cases hlink
    refine ⟨hopen', .inr ⟨cause.1, cause.2, rfl, ?_⟩⟩
    obtain ⟨items, more, h⟩ := hbefore
    exact ⟨items, more, ⟨h.holds.limit_eq, h.holds.fits, h.holds.parts, h.holds.written,
      h.holds.ended⟩, h.asks_eq, h.log_append, h.open_eq⟩

/-- **Octets are written to their end**, whatever the reader does meanwhile. -/
theorem Sound.writes {out : Except ChannelError Unit × Session}
    (hwrites : Channel.Writes transport xs d s out)
    (h : Sound limit expected further (Stream.tagged xs d ++ unwritten) s)
    (hopen : s.link.closed = false) :
    out.1 = .ok () ∧ Sound limit expected further unwritten out.2 ∧ out.2.link.closed = false := by
  induction hwrites with
  | done => exact ⟨rfl, h, hopen⟩
  | refused hne hwrite =>
    obtain ⟨-, ⟨n, hn, hresult, -⟩ | ⟨e, -, hresult, -⟩⟩ := h.write hopen hne hwrite
    · cases hresult
      exact absurd rfl hn
    · cases hresult
  | accepted hne hn hwrite _ ih =>
    obtain ⟨hopen', ⟨n, -, hresult, h'⟩ | ⟨e, -, hresult, -⟩⟩ := h.write hopen hne hwrite
    · cases hresult
      exact ih h' hopen'
    · cases hresult
  | interrupted hne he hwrite _ ih =>
    obtain ⟨hopen', ⟨n, -, hresult, -⟩ | ⟨e, -, -, h'⟩⟩ := h.write hopen hne hwrite
    · cases hresult
    · exact ih h' hopen'
  | failed hne he hwrite =>
    obtain ⟨-, ⟨n, -, hresult, -⟩ | ⟨e, he', hresult, -⟩⟩ := h.write hopen hne hwrite
    · cases hresult
    · cases hresult
      exact absurd he' he

/-- **All items are sent**, whatever the reader does meanwhile. -/
theorem Sound.sendAll {sender : Channel} {items : List Item}
    (hencode : ∀ item ∈ items, ∃ xs, item.encode sender.limit = .ok xs)
    (h : Sound limit expected further (items.flatMap Item.stream) s)
    (hopen : s.link.closed = false) :
    (Session.sendAll sender items s).1 = items.map (fun _ => .ok ()) ∧
      Sound limit expected further [] (Session.sendAll sender items s).2 ∧
      (Session.sendAll sender items s).2.link.closed = false := by
  induction items generalizing s with
  | nil => exact ⟨rfl, h, hopen⟩
  | cons item items ih =>
    obtain ⟨xs, hxs⟩ := hencode item (List.mem_cons_self ..)
    rw [List.flatMap_cons, Item.stream, Item.octets_of_encode hxs] at h
    have hwrites := (Channel.writes_iff transport_lawful).2
      (Channel.put_of_encode (T := transport) rfl hxs s).symm
    obtain ⟨hok, h', hopen'⟩ := Sound.writes hwrites h hopen
    obtain ⟨hoks, h'', hopen''⟩ :=
      ih (fun item hmem => hencode item (List.mem_cons_of_mem _ hmem)) h' hopen'
    refine ⟨?_, h'', hopen''⟩
    show (Channel.put transport sender item s).1 :: _ = _
    rw [hok]
    exact congrArg _ hoks

/-- When the sender has closed its end a session that is written to its end goes on. -/
theorem Sound.close (h : Sound limit expected further [] s) :
    Sound limit expected further [] s.close := by
  obtain ⟨items, more, h⟩ := h
  refine ⟨items, more, ⟨h.holds.limit_eq, h.holds.fits, h.holds.parts, fun _ => rfl,
    fun hended => ⟨rfl, (h.holds.ended hended).2⟩⟩, h.asks_eq, h.log_append, nofun⟩

/-- **What is sent is received**, item for item and in order, and then the end. However the link
takes writes apart, brings reads and interrupts either, and however the reader's turns fall between
the sender's writes, every item is sent; what the reader's calls come to is a front part of the
items while the sender's end is open, and of the items and the end ever after when it is closed; and
each turn gets a call through or uses up a delay, until there is nothing more to come. -/
theorem delivery_in_order (items : List Item) (sender : Channel) (limit : Nat)
    (hfits : ∀ item ∈ items, (∃ xs, item.encode sender.limit = .ok xs) ∧ item.size ≤ limit)
    (reads : List ReadTurn) (writes : List WriteTurn) (reports : Bool) (further : List Ask)
    (schedule : List Nat) (n m : Nat) :
    let start : Session :=
      { link := { reads, writes }
        reader := { limit, interruptible := reports }
        asks := items.map Item.ask ++ further
        schedule }
    let sent := (Session.sendAll sender items start).2
    let before := Session.turns n sent
    let after := Session.turns m before.close
    (Session.sendAll sender items start).1 = items.map (fun _ => .ok ()) ∧
    before.log <+: items.map .item ∧
    min (sent.log.length + n) items.length ≤ before.log.length + sent.link.delays ∧
    after.log <+: items.map .item ++ further.map (fun _ => .ended) ∧
    min (before.log.length + m) (items.length + further.length) ≤
      after.log.length + before.link.delays := by
  intro start sent before after
  have hstart : Sound limit (items.map .item ++ further.map fun _ => .ended) further
      (items.flatMap Item.stream) start := by
    refine ⟨items, further, ⟨rfl, fun item hmem => ?_, ⟨[], rfl, rfl, rfl⟩, nofun, nofun⟩, rfl, rfl,
      fun _ => rfl⟩
    exact ⟨⟨_, (hfits item hmem).1⟩, (hfits item hmem).2⟩
  obtain ⟨hoks, hsent, hopen⟩ := hstart.sendAll (fun item hmem => (hfits item hmem).1) rfl
  have hbefore : Sound limit (items.map .item ++ further.map fun _ => .ended) further [] before :=
    hsent.turns n
  have hafter : Sound limit (items.map .item ++ further.map fun _ => .ended) further [] after :=
    hbefore.close.turns m
  refine ⟨hoks, ?_, ?_, hafter.log_isPrefix, ?_⟩
  · obtain ⟨left, more, hleft⟩ := hbefore
    have hmore := hleft.open_eq ((turns_later n sent).closed_eq.trans hopen)
    have happend := hleft.log_append
    rw [hmore, ← List.append_assoc] at happend
    exact ⟨_, List.append_cancel_right happend⟩
  · have hprogress : sent.log.length + n + before.link.delays ≤
          before.log.length + sent.link.delays ∨ _ ≤ before.log.length + _ := hsent.progress n
    rw [hopen, List.length_append, List.length_map, List.length_map,
      if_neg Bool.false_ne_true] at hprogress
    omega
  · have hprogress : before.log.length + m + after.link.delays ≤
          after.log.length + before.link.delays ∨ _ ≤ after.log.length + _ :=
      hbefore.close.progress m
    rw [show before.close.link.closed = true from rfl, List.length_append, List.length_map,
      List.length_map, if_pos rfl] at hprogress
    omega

/-- A message with a descriptor and a scalar, to a reader who makes one call too many: the first
write takes one octet, the second is interrupted, and the reader is paused and interrupted inside of
the first frame. -/
theorem delivery_in_order_in_pieces :
    let items : List Item := [.envelope ⟨⟨"ok", [[7]]⟩, some ⟨"log"⟩⟩, .scalar [9]]
    let interrupted : Interruption := ⟨.plain .interrupted, rfl⟩
    let start : Session :=
      { link :=
          { reads := [.take 2, .pause, .interrupt interrupted, .take 0]
            writes := [.take 0, .interrupt interrupted, .take 3] }
        reader := { limit := 64, interruptible := true }
        asks := [.message, .scalar, .message]
        schedule := [0, 1, 1] }
    let sent := (sendAll { limit := 64 } items start).2
    (sendAll { limit := 64 } items start).1 = [.ok (), .ok ()] ∧
      (turns 4 (turns 1 sent).close).log = items.map .item ++ [.ended] := by
  intro items interrupted start sent
  have hfits : ∀ item ∈ items, (∃ xs, item.encode 64 = .ok xs) ∧ item.size ≤ 64 := by
    intro item hmem
    rcases List.mem_cons.1 hmem with rfl | hmem
    · exact ⟨⟨_, rfl⟩, by decide⟩
    · rw [List.mem_singleton.1 hmem]
      exact ⟨⟨_, rfl⟩, by decide⟩
  obtain ⟨hoks, -, -, hlog, hlen⟩ := delivery_in_order items { limit := 64 } 64 hfits
    start.link.reads start.link.writes true [.message] start.schedule 1 4
  have hdelays : (turns 1 sent).link.delays = 0 := by
    decide +kernel
  change min ((turns 1 sent).log.length + 4) 3 ≤
    (turns 4 (turns 1 sent).close).log.length + (turns 1 sent).link.delays at hlen
  refine ⟨hoks, hlog.eq_of_length_le ?_⟩
  rw [hdelays] at hlen
  show 3 ≤ (turns 4 (turns 1 sent).close).log.length
  omega

end Session

end Overseer
