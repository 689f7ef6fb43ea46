import Overseer.Proofs.Channel.Attempts
import Overseer.Proofs.Channel.Schedule
import Overseer.Proofs.Process.Inflow

/-!
# Frames that are cut off

A call that sends an item may fail when a part of the frame is on its way, and the caller may go on.
The reader is still owed the rest of that frame, and takes for it whatever comes next: it may come
to read a frame that nobody has sent, made of parts of two (`mixed_behind_a_cut_off_frame`). As long
as nothing is taken behind a frame that was cut off, all that the reader receives was sent, by calls
that succeeded, in the order of these calls (`received_were_sent`); other failures do no harm.

The proof follows the octets. What a reader holds and what is still to be brought to it is a front
part of what is left of the stream when the frames that it has read are taken off
(`Fetches.takes`, `calls_take`); and off the stream of some attempts nothing can be read but the
frames of those that succeeded (`leads_of_attempts`).
-/

namespace Overseer

/-- A transport brings octets in order: a read brings those that are next. What comes later may get
lost. -/
structure Transport.Supplies {ρ : Type} (R : Transport ρ) (left : ρ → Octets) : Prop where
  brings : ∀ r n reading r', R.read r n = (some reading, r') → reading.octets ++ left r' <+: left r
  waits : ∀ r n r', R.read r n = (none, r') → left r' <+: left r

/-- An item without what was attached to it. -/
def Item.bare : Item → Item
  | envelope ⟨m, _⟩ => envelope ⟨m, none⟩
  | scalar data => scalar data

/-- What is in a frame. -/
def Frame.bare : Frame → Item
  | message m _ => .envelope ⟨m, none⟩
  | scalar data _ => .scalar data

/-- What was received, if anything was. -/
def Reception.item? {α : Type} : Reception α → Option α
  | item value => some value
  | ended | failed _ | waiting => none

/-! ## What can be read off a stream -/

namespace Frame

variable {limit limit' : Nat} {xs ys rest rest' : Octets} {frames frames' : List Frame}

/-- A frame that is admitted is admitted under a higher limit too. -/
theorem decode_mono (hle : limit ≤ limit') {out : Frame × Octets}
    (h : decode limit xs = .ok (some out)) : decode limit' xs = .ok (some out) := by
  obtain ⟨kind, flags, a, b, c, d, body, hxs, hlen, hsize, hread⟩ := decode_eq_some.1 h
  rw [checkSize_eq_ok] at hsize
  refine decode_eq_some.2 ⟨kind, flags, a, b, c, d, body, hxs, hlen, ?_, hread⟩
  exact checkSize_eq_ok.2 ⟨Nat.le_trans hsize.1 hle, hsize.2⟩

theorem Leads.append (h : Leads limit xs frames rest) (ys : Octets) :
    Leads limit (xs ++ ys) frames (rest ++ ys) := by
  induction h with
  | nil xs => exact .nil _
  | cons h _ ih => exact .cons (decode_append h ys) ih

theorem Leads.trans (h : Leads limit xs frames ys) (h' : Leads limit ys frames' rest) :
    Leads limit xs (frames ++ frames') rest := by
  induction h with
  | nil xs => exact h'
  | cons h _ ih => exact .cons h (ih h')

/-- What can be read off a front part can be read off the whole. -/
theorem Leads.of_isPrefix (h : Leads limit xs frames rest) (hfront : xs <+: ys) :
    ∃ rest', Leads limit ys frames rest' ∧ rest <+: rest' := by
  obtain ⟨more, rfl⟩ := hfront
  exact ⟨rest ++ more, h.append more, List.prefix_append ..⟩

end Frame

namespace Item

variable {limit receiver : Nat} {item : Item} {xs : Octets}

theorem bare_frame (item : Item) : item.frame.bare = item.bare := by
  cases item <;> rfl

/-- If anything is read where an item's frame stands, then it is that frame. -/
theorem eq_of_decode (hencode : item.encode limit = .ok xs) {rest rest' : Octets} {frame : Frame}
    (h : Frame.decode receiver (item.octets ++ rest) = .ok (some (frame, rest'))) :
    frame = item.frame ∧ rest' = rest := by
  have hitem := decode_octets hencode (Nat.le_max_right receiver item.size) rest
  rw [Frame.decode_mono (Nat.le_max_left ..) h] at hitem
  cases hitem
  exact ⟨rfl, rfl⟩

/-- Nothing is read where an item's frame is cut off. -/
theorem not_decode_of_cutOff (hencode : item.encode limit = .ok xs) {part : Octets}
    (hfront : part <+: item.octets) (hshort : part ≠ item.octets) (out : Frame × Octets) :
    Frame.decode receiver part ≠ .ok (some out) := by
  intro h
  obtain ⟨frame, rest⟩ := out
  obtain ⟨back, hback⟩ := hfront
  have hwhole := Frame.decode_append h back
  rw [hback, ← List.append_nil item.octets] at hwhole
  have hrest := (eq_of_decode hencode hwhole).2
  rw [(List.append_eq_nil_iff.1 hrest).2, List.append_nil] at hback
  exact hshort hback

end Item

/-- **Off the stream of some attempts** nothing can be read but the frames of those that succeeded,
if nothing is taken behind a frame that was cut off. -/
theorem leads_of_attempts {limit receiver : Nat} {attempts : List Attempt} {frames : List Frame}
    {rest : Octets} (hsound : ∀ a ∈ attempts, a.Sound limit)
    (hstops : attempts.Pairwise fun a b => a.CutOff → b.taken = [])
    (h : Frame.Leads receiver (attempts.flatMap Attempt.taken) frames rest) :
    (frames.map Frame.bare).Sublist
      ((attempts.filter Attempt.succeeded).map fun a => a.item.bare) := by
  induction attempts generalizing frames with
  | nil =>
    cases h with
    | nil => exact .slnil
    | cons h => cases h
  | cons a attempts ih =>
    rw [List.forall_mem_cons] at hsound
    rw [List.pairwise_cons] at hstops
    rw [List.flatMap_cons] at h
    by_cases hall : a.taken = a.item.octets
    · -- the frame is complete, and the first that can be read
      have hsucceeded := hsound.1.succeeded_iff.2 hall
      obtain ⟨xs, hencode⟩ := hsound.1.encodes (by rw [hall]; exact a.item.octets_ne_nil)
      rw [List.filter_cons_of_pos hsucceeded, List.map_cons]
      rw [hall] at h
      cases h with
      | nil => exact List.nil_sublist _
      | cons hdec hrest =>
        obtain ⟨rfl, rfl⟩ := Item.eq_of_decode hencode hdec
        rw [List.map_cons, Item.bare_frame]
        exact (ih hsound.2 hstops.2 hrest).cons_cons _
    · have hfailed : ¬ a.succeeded = true := fun hok => hall (hsound.1.succeeded_iff.1 hok)
      rw [List.filter_cons_of_neg hfailed]
      by_cases hnone : a.taken = []
      · rw [hnone, List.nil_append] at h
        exact ih hsound.2 hstops.2 h
      · -- the frame is cut off, and nothing follows
        obtain ⟨xs, hencode⟩ := hsound.1.encodes hnone
        have hrest : attempts.flatMap Attempt.taken = [] :=
          List.flatMap_eq_nil_iff.2 fun b hb => hstops.1 b hb ⟨hnone, hall⟩
        rw [hrest, List.append_nil] at h
        cases h with
        | nil => exact List.nil_sublist _
        | cons hdec =>
          exact absurd hdec (Item.not_decode_of_cutOff hencode hsound.1.taken_isPrefix hall _)

/-! ## What a reader takes off a stream -/

/-- A call that hands something over hands over what is in a frame. -/
theorem Ask.bare_of_accept {ask : Ask} {answer : Reception (Frame × Option Descriptor)}
    {item : Item} (h : ask.accept answer = .item item) :
    ∃ frame d, answer = .item (frame, d) ∧ item.bare = frame.bare := by
  cases answer with
  | item value =>
    obtain ⟨frame, d⟩ := value
    refine ⟨frame, d, rfl, ?_⟩
    cases ask <;> cases frame <;> cases h <;> rfl
  | ended | failed | waiting => cases ask <;> cases h

namespace Channel

section
variable {ρ : Type} (R : Transport ρ)

/-- What one call after the other comes to, whatever it is. -/
def calls : List Ask → Channel → ρ → List (Reception Item)
  | [], _, _ => []
  | ask :: asks, c, r =>
    let (answer, c, r) := call R ask c r
    answer :: calls asks c r

end

variable {ρ : Type} {R : Transport ρ} {left : ρ → Octets} {c c' : Channel} {r : ρ}

/-- A reading goes behind what is buffered. -/
theorem buffer_absorb {reading : Reading} {failure : Option ChannelError}
    (h : c.absorb reading = (failure, c')) :
    c'.buffer = c.buffer ++ reading.octets ∧ c'.limit = c.limit := by
  have hnothing {e : IoError} (hr : reading.result = .error e) : reading.octets = [] := by
    rw [Reading.octets, hr]
  cases failure with
  | some e =>
    obtain ⟨rfl, cause, hr, -⟩ := absorb_eq_some h
    rw [hnothing hr, List.append_nil]
    exact ⟨rfl, rfl⟩
  | none =>
    rcases absorb_eq_none h with ⟨xs, hr, -, rfl⟩ | ⟨hr | ⟨e, hr, -⟩, rfl⟩ | ⟨⟨e, hr, -⟩, -, rfl⟩
    · rw [Reading.octets, hr]
      exact ⟨rfl, rfl⟩
    · rw [Reading.octets, hr, List.append_nil]
      exact ⟨rfl, rfl⟩
    · rw [hnothing hr, List.append_nil]
      exact ⟨rfl, rfl⟩
    · rw [hnothing hr, List.append_nil]
      exact ⟨rfl, rfl⟩

/-- What a reader holds, and is still to be brought, does not grow with a reading. -/
theorem held_isPrefix (hR : R.Supplies left) {n : Nat} {reading : Reading} {r' : ρ}
    (hread : R.read r n = (some reading, r')) {failure : Option ChannelError}
    (habsorb : c.absorb reading = (failure, c')) :
    c'.buffer ++ left r' <+: c.buffer ++ left r := by
  rw [(buffer_absorb habsorb).1, List.append_assoc]
  exact (List.prefix_append_right_inj _).2 (hR.brings _ _ _ _ hread)

/-- **A call takes at most one frame off the stream**, and hands over none that it does not take. -/
theorem Fetches.takes (hR : R.Supplies left)
    {out : Reception (Frame × Option Descriptor) × Channel × ρ} (h : Fetches R c r out) :
    ∃ frames rest, Frame.Leads c.limit (c.buffer ++ left r) frames rest ∧
      out.2.1.buffer ++ left out.2.2 <+: rest ∧ out.2.1.limit = c.limit ∧
      ∀ frame d, out.1 = .item (frame, d) → frames = [frame] := by
  induction h with
  | @settled c c' r answer h =>
    have htakes {frame : Frame} {rest : Octets}
        (hdec : Frame.decode c.limit c.buffer = .ok (some (frame, rest))) :
        Frame.Leads c.limit (c.buffer ++ left r) [frame] (rest ++ left r) :=
      .cons (Frame.decode_append hdec _) (.nil _)
    have hnone : Frame.Leads c.limit (c.buffer ++ left r) [] (c.buffer ++ left r) := .nil _
    cases settles_iff.1 h with
    | refused | atEnd | cutShort => exact ⟨[], _, hnone, List.prefix_rfl, rfl, nofun⟩
    | plain hdec | flagged hdec =>
      refine ⟨_, _, htakes hdec, List.prefix_rfl, rfl, fun frame d heq => ?_⟩
      cases heq
      rfl
    | missing hdec => exact ⟨_, _, htakes hdec, List.prefix_rfl, rfl, nofun⟩
  | dry _ hread =>
    refine ⟨[], _, .nil _, ?_, rfl, nofun⟩
    exact (List.prefix_append_right_inj _).2 (hR.waits _ _ _ hread)
  | broken _ hread habsorb =>
    exact ⟨[], _, .nil _, held_isPrefix hR hread habsorb, (buffer_absorb habsorb).2, nofun⟩
  | onward _ hread habsorb _ ih =>
    obtain ⟨frames, rest, hleads, hheld, hlimit, hitem⟩ := ih
    have hsame := (buffer_absorb habsorb).2
    rw [hsame] at hleads hlimit
    obtain ⟨rest', hleads', hrest⟩ := hleads.of_isPrefix (held_isPrefix hR hread habsorb)
    exact ⟨frames, rest', hleads', hheld.trans hrest, hlimit, hitem⟩

/-- **What calls hand over** is in frames that they take off the stream, in that order. -/
theorem calls_take (hlawful : R.Lawful) (hR : R.Supplies left) (asks : List Ask) (c : Channel)
    (r : ρ) :
    ∃ frames rest, Frame.Leads c.limit (c.buffer ++ left r) frames rest ∧
      (((calls R asks c r).filterMap Reception.item?).map Item.bare).Sublist
        (frames.map Frame.bare) := by
  induction asks generalizing c r with
  | nil => exact ⟨[], _, .nil _, .slnil⟩
  | cons ask asks ih =>
    generalize hfirst : nextFrame R c r = out
    obtain ⟨frames, rest, hleads, hheld, hlimit, hitem⟩ :=
      Fetches.takes hR ((fetches_iff hlawful).2 hfirst)
    obtain ⟨frames', rest', hleads', hsub⟩ := ih out.2.1 out.2.2
    rw [hlimit] at hleads'
    obtain ⟨rest'', hleads'', -⟩ := hleads'.of_isPrefix hheld
    refine ⟨frames ++ frames', rest'', hleads.trans hleads'', ?_⟩
    have hcalls : calls R (ask :: asks) c r = ask.accept out.1 :: calls R asks out.2.1 out.2.2 := by
      rw [calls, call_eq, hfirst]
    rw [hcalls, List.map_append]
    cases hanswer : ask.accept out.1 with
    | item item =>
      obtain ⟨frame, d, hout, hbare⟩ := Ask.bare_of_accept hanswer
      rw [hitem frame d hout, List.filterMap_cons_some (f := Reception.item?) rfl, List.map_cons,
        hbare]
      exact hsub.cons_cons _
    | ended | failed | waiting =>
      rw [List.filterMap_cons_none (f := Reception.item?) rfl]
      exact hsub.trans (List.sublist_append_right ..)

/-- **Whatever is received was sent**, by a call that succeeded, and in the order of these calls: no
matter which of the calls failed and when, as long as nothing was taken behind a frame that was cut
off, and no matter how the octets are brought to the reader, of which the last may be missing. -/
theorem received_were_sent {τ : Type} {T : Transport τ} (hT : T.Lawful) (sender : Channel)
    (items : List Item) (t : τ)
    (hstops : (attempts T sender items t).Pairwise fun a b => a.CutOff → b.taken = [])
    (hlawful : R.Lawful) (hR : R.Supplies left) (reader : Channel) (hreader : reader.buffer = [])
    (r : ρ) (hleft : left r <+: (attempts T sender items t).flatMap Attempt.taken)
    (asks : List Ask) :
    let received := ((calls R asks reader r).filterMap Reception.item?).map Item.bare
    let sent := (attempts T sender items t).filter Attempt.succeeded
    received.Sublist (sent.map fun a => a.item.bare) ∧ received.Sublist (items.map Item.bare) := by
  intro received sent
  obtain ⟨frames, rest, hleads, hsub⟩ := calls_take hlawful hR asks reader r
  rw [hreader, List.nil_append] at hleads
  obtain ⟨rest', hleads', -⟩ := hleads.of_isPrefix hleft
  have hsent : received.Sublist (sent.map fun a => a.item.bare) :=
    hsub.trans (leads_of_attempts (attempts_sound hT items t) hstops hleads')
  refine ⟨hsent, hsent.trans ?_⟩
  have hitems := congrArg (List.map Item.bare) (attempts_items (T := T) (c := sender) items t)
  rw [List.map_map] at hitems
  rw [← hitems]
  exact List.filter_sublist.map _

end Channel

/-! ## Scripted ends -/

namespace Scripted

/-- The octets that some reads bring. -/
def octetsOf (reads : List ReadEntry) : Octets :=
  reads.flatMap fun
    | .data xs _ => xs
    | .fault _ => []

/-- What is left of an entry stays in front. -/
theorem octetsOf_rest (rest : Octets) (reads : List ReadEntry) :
    octetsOf (if rest.isEmpty then reads else .data rest [] :: reads) = rest ++ octetsOf reads := by
  split
  · next hempty =>
    rw [List.isEmpty_iff.1 hempty]
    rfl
  · rfl

/-- A script brings its octets in order. -/
theorem supplies (carriage : Carriage) :
    (transport carriage).Supplies fun t => octetsOf t.reads where
  brings t n reading t' h := by
    obtain ⟨reads, writes, written, handed⟩ := t
    unfold transport read at h
    cases reads with
    | nil =>
      cases h
      exact List.prefix_rfl
    | cons entry reads =>
      cases entry with
      | fault e =>
        cases h
        exact List.prefix_rfl
      | data xs ds =>
        cases h
        have hsame : xs.take n ++ octetsOf (if (xs.drop n).isEmpty then reads
            else .data (xs.drop n) [] :: reads) = xs ++ octetsOf reads := by
          rw [octetsOf_rest, ← List.append_assoc, List.take_append_drop]
        exact ⟨[], (List.append_nil _).trans hsame⟩
  waits t n t' h := by cases h

end Scripted

namespace Channel

instance (a : Attempt) : Decidable a.CutOff := inferInstanceAs (Decidable (_ ∧ _))

/-- A sender whose calls meet with every kind of trouble. The first is interrupted and goes on, the
second fails before anything is taken, the fourth cuts its frame off, and nothing is taken then. -/
def troubled : Scripted where
  writes := [.accept 3, .fault (.plain .interrupted), .accept 100, .fault (.plain .timedOut),
    .accept 100, .accept 6, .accept 0, .fault .brokenPipe]

/-- What it sends. -/
def sundry : List Item :=
  [.scalar [1], .scalar [2], .envelope ⟨⟨"hi", []⟩, none⟩, .scalar [3, 4], .scalar [5]]

/-- A reader of that, who is disturbed. -/
def disturbed : Scripted where
  reads := [.data [2, 0, 0, 0] [], .fault (.plain .timedOut),
    .data [0, 1, 1, 1, 0, 0, 0, 0, 8, 0, 1, 0, 0, 0, 2, 104] [],
    .data [105, 2, 0, 0, 0, 0, 2] []]

theorem received_were_sent_between_failures :
    let made := attempts (Scripted.transport .full) {} sundry troubled
    let received := ((calls (Scripted.transport .full) [.scalar, .scalar, .message, .scalar] {}
      disturbed).filterMap Reception.item?).map Item.bare
    made.map Attempt.succeeded = [true, false, true, false, false] ∧
      Scripted.octetsOf disturbed.reads = made.flatMap Attempt.taken ∧
      received = [.scalar [1], .envelope ⟨⟨"hi", []⟩, none⟩] ∧
      received.Sublist (sundry.map Item.bare) := by
  intro made received
  have hstops : made.Pairwise fun a b => a.CutOff → b.taken = [] := by decide +kernel
  have hleft : Scripted.octetsOf disturbed.reads = made.flatMap Attempt.taken := by decide +kernel
  obtain ⟨-, hsublist⟩ := received_were_sent (Scripted.transport_lawful .full) {} sundry troubled
    hstops (Scripted.transport_lawful .full) (Scripted.supplies .full) {} rfl disturbed
    (hleft ▸ List.prefix_rfl) [.scalar, .scalar, .message, .scalar]
  exact ⟨by decide +kernel, hleft, by decide +kernel, hsublist⟩

/-- The first call fails when the header is taken, and the second one succeeds. Its frame is taken
for the body that the header has announced: the reader receives what nobody has sent. -/
theorem mixed_behind_a_cut_off_frame :
    let items : List Item := [.scalar [10, 11, 12, 13, 14, 15, 16], .scalar [7]]
    let made := attempts (Scripted.transport .full) {} items
      { writes := [.accept 6, .fault (.plain .timedOut)] }
    let reader : Scripted := { reads := [.data (made.flatMap Attempt.taken) []] }
    let received := ((calls (Scripted.transport .full) [.scalar] {} reader).filterMap
      Reception.item?).map Item.bare
    made.map Attempt.succeeded = [false, true] ∧
      received = [.scalar [2, 0, 0, 0, 0, 1, 7]] ∧ ¬ received.Sublist (items.map Item.bare) := by
  decide +kernel

end Channel

end Overseer
