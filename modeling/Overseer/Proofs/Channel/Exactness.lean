import Overseer.Channel.Scripted
import Overseer.Proofs.Channel.Sending

/-!
# What a transport is asked while an item is sent

`Logged` keeps the calls in which a transport is asked to write, and changes nothing else. A call
that sends an item is refused before any of them, and then the item is to blame or the transport
carries no descriptors (`Unsendable`); or the calls are an `Exact` way to write the frame: each
offers what is left, the descriptor is offered until something is taken, an interrupted call is made
again, and the first one that fails otherwise is the last (`put_exact`). So a sender that sends one
item after the other puts their streams on its way, one behind the other (`putStream_isPrefix`).

The induction is on the writes. `Exact` is built up call by call, from the last one to the first.
-/

namespace Overseer

/-! ## Calls -/

/-- A call in which a transport was asked to write, and what it answered. -/
structure WriteCall where
  offered : Octets
  descriptor : Option Descriptor
  result : Except IoError Nat

namespace WriteCall

/-- What was taken in a call. -/
def accepted (call : WriteCall) : Octets :=
  match call.result with
  | .ok n => call.offered.take n
  | .error _ => []

/-- What a call has put on its way. A descriptor goes with the first octet, if one is taken. -/
def sent (call : WriteCall) : Stream := Stream.tagged call.accepted call.descriptor

/-- The kinds of failures that say that the peer is gone. -/
def peerGone : List IoKind :=
  [.brokenPipe, .connectionReset, .connectionAborted, .notConnected, .writeZero]

/-- The failure that a call brings to the sender, if it brings one. -/
def failure? (call : WriteCall) : Option ChannelError :=
  match call.result with
  | .ok 0 => some .closed
  | .ok _ => none
  | .error e =>
    if e.kind = .interrupted then none
    else if e.kind ∈ peerGone then some .closed
    else some (.io e)

/-- Whether a call was merely interrupted. -/
def Interrupted (call : WriteCall) : Prop :=
  ∃ e, call.result = .error e ∧ e.kind = .interrupted

/-- A call that was interrupted brings no failure. -/
theorem Interrupted.failure?_eq_none {call : WriteCall} (h : call.Interrupted) :
    call.failure? = none := by
  obtain ⟨e, hresult, he⟩ := h
  rw [failure?, hresult]
  exact if_pos he

/-- A failure that is no interruption is the one that the channel makes of it. -/
theorem failure?_of_error {xs : Octets} {d : Option Descriptor} {e : IoError}
    (he : e.kind ≠ .interrupted) : failure? ⟨xs, d, .error e⟩ = some (.ofWrite e) := by
  simp only [failure?, if_neg he, ChannelError.ofWrite, peerGone]
  cases e.kind <;> simp

end WriteCall

/-- A state of a transport, with the calls in which it was asked to write. -/
structure Logged (τ : Type) where
  base : τ
  calls : List WriteCall := []

namespace Transport

variable {τ : Type}

/-- A transport that keeps a log of the calls. -/
def logged (T : Transport τ) : Transport (Logged τ) where
  carriesDescriptors := T.carriesDescriptors
  write t xs d :=
    let (r, base) := T.write t.base xs d
    (r, ⟨base, t.calls ++ [⟨xs, d, r⟩]⟩)
  read t n := ((T.read t.base n).1, ⟨(T.read t.base n).2, t.calls⟩)
  inflow t := T.inflow t.base
  stalls t := T.stalls t.base

variable {T : Transport τ} {t t' : Logged τ} {xs : Octets} {d : Option Descriptor}
  {r : Except IoError Nat}

theorem logged_write (h : T.logged.write t xs d = (r, t')) :
    T.write t.base xs d = (r, t'.base) ∧ t'.calls = t.calls ++ [⟨xs, d, r⟩] := by
  cases h
  exact ⟨rfl, rfl⟩

/-- A transport that keeps a log promises what it did before. -/
theorem logged_lawful (hT : T.Lawful) : T.logged.Lawful where
  inflow_read t n r t' h hr := by
    obtain ⟨hread, rfl⟩ := Prod.mk.injEq .. ▸ h
    exact hT.inflow_read _ n r _ (Prod.ext hread rfl) hr
  write_le t xs d n t' h := hT.write_le _ xs d n _ (logged_write h).1
  stalls_write t xs d n t' h := hT.stalls_write _ xs d n _ (logged_write h).1
  stalls_interrupted t xs d e t' h := hT.stalls_interrupted _ xs d e _ (logged_write h).1

end Transport

/-! ## Exact ways to write -/

/-- Calls in which octets and a descriptor were offered as they have to be, and what came of it. -/
structure Exact (xs : Octets) (d : Option Descriptor) (calls : List WriteCall)
    (result : Except ChannelError Unit) : Prop where
  /-- What is taken is a front part. -/
  front : calls.flatMap WriteCall.accepted <+: xs
  /-- It is all of it exactly if the sending succeeds. -/
  whole : result = .ok () ↔ calls.flatMap WriteCall.accepted = xs
  /-- The descriptor is on its way with the first octet that is taken, and with no other. -/
  sent : calls.flatMap WriteCall.sent = Stream.tagged (calls.flatMap WriteCall.accepted) d
  /-- Every call offers what is left. -/
  offers : ∀ before call after, calls = before ++ call :: after →
    call.offered ≠ [] ∧ xs = before.flatMap WriteCall.accepted ++ call.offered
  /-- The descriptor is offered until something is taken. -/
  attaches : ∀ before call after, calls = before ++ call :: after →
    (before.flatMap WriteCall.accepted = [] → call.descriptor = d) ∧
    (before.flatMap WriteCall.accepted ≠ [] → call.descriptor = none)
  /-- A call that was interrupted is made again. -/
  retries : ∀ before call after, calls = before ++ call :: after → call.Interrupted →
    ∃ again more, after = again :: more ∧ again.offered = call.offered ∧
      again.descriptor = call.descriptor
  /-- A call that fails is the last one, and says why the sending fails. -/
  fails : ∀ before call after, calls = before ++ call :: after → ∀ e, call.failure? = some e →
    after = [] ∧ result = .error e
  /-- The sending fails for no other reason. -/
  cause : ∀ e, result = .error e → ∃ before call, calls = before ++ [call] ∧ call.failure? = some e

/-- The ways to cut a list in front of one of its elements. -/
theorem forall_cut_cons {α : Type} {P : List α → α → List α → Prop} {y : α} {ys : List α} :
    (∀ before x after, y :: ys = before ++ x :: after → P before x after) ↔
      P [] y ys ∧ ∀ before x after, ys = before ++ x :: after → P (y :: before) x after := by
  constructor
  · intro h
    exact ⟨h [] y ys rfl, fun before x after hys => h (y :: before) x after (congrArg (y :: ·) hys)⟩
  · rintro ⟨hfirst, hothers⟩ before x after h
    cases before with
    | nil =>
      cases h
      exact hfirst
    | cons z before =>
      injection h with hy hys
      subst hy
      exact hothers before x after hys

/-- There is no way to cut the empty list. -/
theorem forall_cut_nil {α : Type} {P : List α → α → List α → Prop} :
    ∀ before x after, ([] : List α) = before ++ x :: after → P before x after := by
  intro before x after h
  simp at h

namespace Exact

variable {xs more : Octets} {d d' : Option Descriptor} {calls : List WriteCall}
  {result : Except ChannelError Unit}

/-- Nothing is left. -/
theorem done (d : Option Descriptor) : Exact [] d [] (.ok ()) where
  front := List.prefix_rfl
  whole := iff_of_true rfl rfl
  sent := rfl
  offers := forall_cut_nil
  attaches := forall_cut_nil
  retries := forall_cut_nil
  fails := forall_cut_nil
  cause _ h := nomatch h

/-- The last call fails. -/
theorem last (call : WriteCall) {e : ChannelError} (hne : call.offered ≠ [])
    (hnone : call.accepted = []) (hfails : call.failure? = some e) :
    Exact call.offered call.descriptor [call] (.error e) := by
  have htaken : [call].flatMap WriteCall.accepted = [] := by
    rw [List.flatMap_singleton, hnone]
  refine ⟨?_, ?_, ?_, ?_, ?_, ?_, ?_, ?_⟩
  · rw [htaken]
    exact List.nil_prefix
  · rw [htaken]
    exact iff_of_false nofun (Ne.symm hne)
  · rw [htaken, List.flatMap_singleton, WriteCall.sent, hnone]
  · exact forall_cut_cons.2 ⟨⟨hne, rfl⟩, forall_cut_nil⟩
  · exact forall_cut_cons.2 ⟨⟨fun _ => rfl, fun h => absurd rfl h⟩, forall_cut_nil⟩
  · refine forall_cut_cons.2 ⟨fun h => ?_, forall_cut_nil⟩
    cases h.failure?_eq_none.symm.trans hfails
  · refine forall_cut_cons.2 ⟨fun e' h => ⟨rfl, ?_⟩, forall_cut_nil⟩
    rw [Option.some.inj (hfails.symm.trans h)]
  · intro e' h
    cases h
    exact ⟨[], call, rfl, hfails⟩

/-- Something follows as long as something is left. -/
theorem exists_cons (h : Exact xs d calls result) (hne : xs ≠ []) :
    ∃ call after, calls = call :: after := by
  cases calls with
  | cons call after => exact ⟨call, after, rfl⟩
  | nil =>
    cases result with
    | ok => exact absurd (h.whole.1 rfl).symm hne
    | error e =>
      obtain ⟨before, call, hcalls, -⟩ := h.cause e rfl
      simp at hcalls

/-- **A call in front of others**, which offer what is left behind it. -/
theorem cons (call : WriteCall) (h : Exact more d' calls result) (hne : call.offered ≠ [])
    (hmore : call.offered = call.accepted ++ more) (hgoes : call.failure? = none)
    (hkeeps : call.accepted = [] → d' = call.descriptor)
    (hdrops : call.accepted ≠ [] → d' = none) :
    Exact call.offered call.descriptor (call :: calls) result := by
  refine ⟨?_, ?_, ?_, ?_, ?_, ?_, ?_, ?_⟩
  · rw [hmore, List.flatMap_cons]
    exact (List.prefix_append_right_inj _).2 h.front
  · rw [List.flatMap_cons, hmore, List.append_cancel_left_eq]
    exact h.whole
  · rw [List.flatMap_cons, List.flatMap_cons, h.sent, WriteCall.sent]
    by_cases htaken : call.accepted = []
    · rw [htaken, hkeeps htaken, List.nil_append, Stream.tagged_nil, List.nil_append]
    · rw [hdrops htaken, Stream.tagged_append htaken]
  · refine forall_cut_cons.2 ⟨⟨hne, rfl⟩, fun before next after hcut => ?_⟩
    obtain ⟨hne', hrest⟩ := h.offers before next after hcut
    refine ⟨hne', ?_⟩
    rw [hmore, hrest, List.flatMap_cons, List.append_assoc]
  · refine forall_cut_cons.2
      ⟨⟨fun _ => rfl, fun h => absurd rfl h⟩, fun before next after hcut => ?_⟩
    obtain ⟨hfirst, hothers⟩ := h.attaches before next after hcut
    rw [List.flatMap_cons]
    constructor
    · intro hnone
      obtain ⟨hhere, hbefore⟩ := List.append_eq_nil_iff.1 hnone
      rw [hfirst hbefore, hkeeps hhere]
    · intro hsome
      by_cases hbefore : before.flatMap WriteCall.accepted = []
      · rw [hfirst hbefore, hdrops fun hhere => hsome (by rw [hhere, hbefore, List.nil_append])]
      · exact hothers hbefore
  · refine forall_cut_cons.2 ⟨fun ⟨e, hresult, _⟩ => ?_, h.retries⟩
    have hnone : call.accepted = [] := by
      rw [WriteCall.accepted, hresult]
    obtain rfl : call.offered = more := by
      rw [hmore, hnone, List.nil_append]
    obtain ⟨again, after, rfl⟩ := h.exists_cons hne
    obtain ⟨-, hoffered⟩ := h.offers [] again after rfl
    obtain ⟨hfirst, -⟩ := h.attaches [] again after rfl
    exact ⟨again, after, rfl, hoffered.symm, (hfirst rfl).trans (hkeeps hnone)⟩
  · refine forall_cut_cons.2 ⟨fun e hfails => ?_, h.fails⟩
    rw [hgoes] at hfails
    cases hfails
  · intro e hresult
    obtain ⟨before, last, rfl, hlast⟩ := h.cause e hresult
    exact ⟨call :: before, last, rfl, hlast⟩

end Exact

namespace Channel

variable {τ : Type} {T : Transport τ} {xs : Octets} {d : Option Descriptor}

/-- **The writing of a frame is exact.** -/
theorem Writes.exact {t : Logged τ} {out : Except ChannelError Unit × Logged τ}
    (h : Writes T.logged xs d t out) :
    ∃ calls, out.2.calls = t.calls ++ calls ∧ Exact xs d calls out.1 := by
  induction h with
  | done => exact ⟨[], (List.append_nil _).symm, .done _⟩
  | @refused xs d t t' hne hwrite =>
    exact ⟨[⟨xs, d, .ok 0⟩], (Transport.logged_write hwrite).2,
      .last ⟨xs, d, .ok 0⟩ hne rfl rfl⟩
  | @accepted xs d t t' n out hne hn hwrite _ ih =>
    obtain ⟨calls, hcalls, hexact⟩ := ih
    have hsome : xs.take n ≠ [] := fun h => hne ((List.take_eq_nil_iff.1 h).resolve_left hn)
    have hgoes : WriteCall.failure? ⟨xs, d, .ok n⟩ = none := by
      cases n with
      | zero => exact absurd rfl hn
      | succ n => rfl
    refine ⟨⟨xs, d, .ok n⟩ :: calls, ?_, ?_⟩
    · rw [hcalls, (Transport.logged_write hwrite).2, List.append_assoc]
      rfl
    · exact .cons ⟨xs, d, .ok n⟩ hexact hne (List.take_append_drop ..).symm hgoes
        (fun h => absurd h hsome) fun _ => rfl
  | @interrupted xs d t t' e out hne he hwrite _ ih =>
    obtain ⟨calls, hcalls, hexact⟩ := ih
    refine ⟨⟨xs, d, .error e⟩ :: calls, ?_, ?_⟩
    · rw [hcalls, (Transport.logged_write hwrite).2, List.append_assoc]
      rfl
    · exact .cons ⟨xs, d, .error e⟩ hexact hne rfl
        (WriteCall.Interrupted.failure?_eq_none ⟨e, rfl, he⟩) (fun _ => rfl)
        fun h => absurd rfl h
  | @failed xs d t t' e hne he hwrite =>
    exact ⟨[⟨xs, d, .error e⟩], (Transport.logged_write hwrite).2,
      .last ⟨xs, d, .error e⟩ hne rfl (WriteCall.failure?_of_error he)⟩

end Channel

/-! ## Refusals -/

/-- Why an item is not sent under a limit, by a transport that carries descriptors or does not. -/
inductive Unsendable (carries : Bool) (limit : Nat) : Item → ChannelError → Prop where
  /-- The descriptor cannot be carried. -/
  | unsupported (m : Message) (d : Descriptor) (h : carries = false) :
    Unsendable carries limit (.envelope ⟨m, some d⟩) .descriptorsUnsupported
  /-- The message has no name. -/
  | unnamed (m : Message) (d : Option Descriptor) (hd : d.isSome → carries = true)
      (h : m.name = "") :
    Unsendable carries limit (.envelope ⟨m, d⟩) (.violation .emptyName)
  /-- Two octets do not count the elements of the message. -/
  | uncountable (m : Message) (d : Option Descriptor) (hd : d.isSome → carries = true)
      (hname : m.name ≠ "") (h : 65535 < m.args.length + 1) :
    Unsendable carries limit (.envelope ⟨m, d⟩) (.violation (.tooManyElements (m.args.length + 1)))
  /-- The body of the message is above the limit, or four octets do not measure it. -/
  | long (m : Message) (d : Option Descriptor) (hd : d.isSome → carries = true)
      (hname : m.name ≠ "") (hcount : m.args.length + 1 ≤ 65535)
      (h : min limit (2 ^ 32 - 1) < Frame.bodySize m) :
    Unsendable carries limit (.envelope ⟨m, d⟩) (.tooLarge (Frame.bodySize m) limit)
  /-- The data is above the limit, or four octets do not measure it. -/
  | longData (data : Octets) (h : min limit (2 ^ 32 - 1) < data.length) :
    Unsendable carries limit (.scalar data) (.tooLarge data.length limit)

namespace Frame

variable {limit : Nat} {e : ChannelError}

/-- A body's length is refused above one of its bounds. -/
theorem checkSize_eq_error_iff {size : Nat} :
    checkSize size limit = .error e ↔
      min limit (2 ^ 32 - 1) < size ∧ e = .tooLarge size limit := by
  constructor
  · intro h
    refine ⟨?_, checkSize_eq_error h⟩
    rw [← Nat.not_le, Nat.le_min]
    intro hle
    rw [checkSize_eq_ok.2 hle] at h
    cases h
  · rintro ⟨hlt, rfl⟩
    cases h : checkSize size limit with
    | error e => rw [checkSize_eq_error h]
    | ok => exact absurd (Nat.le_min.2 (checkSize_eq_ok.1 h)) (Nat.not_le.2 hlt)

/-- Exactly the messages without a name, with too many elements or with too long a body have no
frame. -/
theorem encodeMessage_eq_error_iff {m : Message} {flagged : Bool} :
    encodeMessage m flagged limit = .error e ↔
      m.name = "" ∧ e = .violation .emptyName ∨
      m.name ≠ "" ∧ 65535 < m.args.length + 1 ∧
        e = .violation (.tooManyElements (m.args.length + 1)) ∨
      m.name ≠ "" ∧ m.args.length + 1 ≤ 65535 ∧ min limit (2 ^ 32 - 1) < bodySize m ∧
        e = .tooLarge (bodySize m) limit := by
  unfold encodeMessage
  by_cases hname : m.name = ""
  · rw [if_pos (String.isEmpty_iff.2 hname), Except.error.injEq]
    simp only [hname, true_and, ne_eq, not_true_eq_false, false_and, or_false, eq_comm]
  · rw [if_neg fun h => hname (String.isEmpty_iff.1 h)]
    simp only [hname, false_and, false_or, ne_eq, not_false_eq_true, true_and]
    by_cases hcount : m.args.length + 1 ≤ 65535
    · have hcountable : ¬ m.size > maxElements := Nat.not_lt.2 hcount
      rw [if_neg hcountable]
      simp only [Nat.not_lt.2 hcount, false_and, false_or, hcount, true_and]
      rw [← checkSize_eq_error_iff]
      cases checkSize (bodySize m) limit with
      | error e' => rw [Except.error.injEq, Except.error.injEq]
      | ok => exact iff_of_false nofun nofun
    · have huncountable : m.size > maxElements := Nat.lt_of_not_le hcount
      rw [if_pos huncountable, Except.error.injEq]
      simp only [hcount, false_and, or_false, Nat.lt_of_not_le hcount, true_and]
      exact eq_comm

/-- Exactly the scalars with too long a body have no frame. -/
theorem encodeScalar_eq_error_iff {data : Octets} :
    encodeScalar data limit = .error e ↔
      min limit (2 ^ 32 - 1) < data.length ∧ e = .tooLarge data.length limit := by
  rw [← checkSize_eq_error_iff, encodeScalar]
  cases checkSize data.length limit with
  | error e' => rw [Except.error.injEq, Except.error.injEq]
  | ok => exact iff_of_false nofun nofun

end Frame

/-- An item whose descriptor can be carried, if it has one, is refused exactly if it has no frame.
-/
theorem unsendable_iff {carries : Bool} {limit : Nat} {item : Item} {e : ChannelError}
    (hcarries : item.descriptor.isSome → carries = true) :
    Unsendable carries limit item e ↔ item.encode limit = .error e := by
  cases item with
  | scalar data =>
    rw [Item.encode, Frame.encodeScalar_eq_error_iff]
    constructor
    · intro h
      cases h with
      | longData data h => exact ⟨h, rfl⟩
    · rintro ⟨h, rfl⟩
      exact .longData data h
  | envelope envelope =>
    obtain ⟨m, d⟩ := envelope
    rw [Item.encode, Frame.encodeMessage_eq_error_iff]
    constructor
    · intro h
      cases h with
      | unsupported m d h =>
        cases h.symm.trans (hcarries rfl)
      | unnamed m d hd h => exact .inl ⟨h, rfl⟩
      | uncountable m d hd hname h => exact .inr (.inl ⟨hname, h, rfl⟩)
      | long m d hd hname hcount h => exact .inr (.inr ⟨hname, hcount, h, rfl⟩)
    · rintro (⟨h, rfl⟩ | ⟨hname, h, rfl⟩ | ⟨hname, hcount, h, rfl⟩)
      · exact .unnamed m d hcarries h
      · exact .uncountable m d hcarries hname h
      · exact .long m d hcarries hname hcount h

/-- The descriptor of an item that is not refused can be carried. -/
theorem carries_of_sendable {carries : Bool} {limit : Nat} {item : Item}
    (h : ∀ e, ¬ Unsendable carries limit item e) : item.descriptor.isSome → carries = true := by
  intro hsome
  cases item with
  | scalar data => cases hsome
  | envelope envelope =>
    obtain ⟨m, d⟩ := envelope
    obtain ⟨d, rfl⟩ := Option.isSome_iff_exists.1 hsome
    rw [← Bool.not_eq_false]
    exact fun hcarries => h _ (.unsupported m d hcarries)

/-- An item that is not refused has a frame. -/
theorem encode_of_sendable {carries : Bool} {limit : Nat} {item : Item}
    (h : ∀ e, ¬ Unsendable carries limit item e) : ∃ xs, item.encode limit = .ok xs := by
  cases hencode : item.encode limit with
  | error e => exact absurd ((unsendable_iff (carries_of_sendable h)).2 hencode) (h e)
  | ok xs => exact ⟨xs, rfl⟩

namespace Channel

variable {τ : Type} {T : Transport τ} {c : Channel} {item : Item} {e : ChannelError}

/-- An item whose descriptor can be carried, if it has one, is sent by writing its frame. -/
theorem put_of_carries (hcarries : item.descriptor.isSome → T.carriesDescriptors = true) (t : τ) :
    put T c item t =
      match item.encode c.limit with
      | .error e => (.error e, t)
      | .ok xs => writeFrame T xs item.descriptor t := by
  cases item with
  | scalar data => rfl
  | envelope envelope =>
    obtain ⟨m, d⟩ := envelope
    cases d with
    | none => rfl
    | some d =>
      rw [put, sendWith, if_pos (hcarries rfl)]
      rfl

/-- What is refused is not sent. -/
theorem put_of_unsendable (h : Unsendable T.carriesDescriptors c.limit item e) (t : τ) :
    put T c item t = (.error e, t) := by
  by_cases hcarries : item.descriptor.isSome → T.carriesDescriptors = true
  · rw [put_of_carries hcarries, (unsendable_iff hcarries).1 h]
  · cases h with
    | unsupported m d h =>
      simp only [put, sendWith, h, Bool.false_eq_true, if_false]
    | unnamed m d hd h => exact absurd hd hcarries
    | uncountable m d hd hname h => exact absurd hd hcarries
    | long m d hd hname hcount h => exact absurd hd hcarries
    | longData data h => exact absurd (fun h => by cases h) hcarries

/-- A log changes nothing else. -/
theorem Writes.unlogged {xs : Octets} {d : Option Descriptor} {t : Logged τ}
    {out : Except ChannelError Unit × Logged τ} (h : Writes T.logged xs d t out) :
    Writes T xs d t.base (out.1, out.2.base) := by
  induction h with
  | done => exact .done
  | refused hne hwrite => exact .refused hne (Transport.logged_write hwrite).1
  | accepted hne hn hwrite _ ih => exact .accepted hne hn (Transport.logged_write hwrite).1 ih
  | interrupted hne he hwrite _ ih =>
    exact .interrupted hne he (Transport.logged_write hwrite).1 ih
  | failed hne he hwrite => exact .failed hne he (Transport.logged_write hwrite).1

/-- **Sending is exact**, whatever the transport answers. A log of the calls in which the
transport is asked to write changes nothing. What is refused, for its descriptor or because it has
no frame, fails with that and without a call. Of anything else the calls take exactly the frame if
the sending succeeds, and a part of it otherwise, in order; the descriptor is on its way once, with
the first octet that is taken, and not at all if none is; a call that was interrupted is made again;
and the sending fails with what the last call has failed with. -/
theorem put_exact (T : Transport τ) (hT : T.Lawful) (c : Channel) (item : Item) (t : τ) :
    let out := put T.logged c item ⟨t, []⟩
    put T c item t = (out.1, out.2.base) ∧
    (∀ e, Unsendable T.carriesDescriptors c.limit item e → out = (.error e, ⟨t, []⟩)) ∧
    ((∀ e, ¬ Unsendable T.carriesDescriptors c.limit item e) →
      ∃ xs, item.encode c.limit = .ok xs ∧ Exact xs item.descriptor out.2.calls out.1 ∧
        out.2.calls.flatMap (fun call => call.sent.descriptors) =
          if out.2.calls.flatMap WriteCall.accepted = [] then [] else item.descriptor.toList) := by
  intro out
  by_cases hrefused : ∃ e, Unsendable T.carriesDescriptors c.limit item e
  · obtain ⟨e, he⟩ := hrefused
    have hout : ∀ e', Unsendable T.carriesDescriptors c.limit item e' →
        out = (.error e', ⟨t, []⟩) := fun e' h => put_of_unsendable (T := T.logged) h _
    refine ⟨?_, hout, fun h => absurd he (h e)⟩
    rw [put_of_unsendable he, hout e he]
  · have hnone : ∀ e, ¬ Unsendable T.carriesDescriptors c.limit item e :=
      fun e he => hrefused ⟨e, he⟩
    have hcarries := carries_of_sendable hnone
    obtain ⟨xs, hencode⟩ := encode_of_sendable hnone
    have hout : out = writeFrame T.logged xs item.descriptor ⟨t, []⟩ := by
      have hput := put_of_carries (T := T.logged) (c := c) hcarries ⟨t, []⟩
      rwa [hencode] at hput
    have hwrites := (writes_iff (Transport.logged_lawful hT)).2 hout.symm
    refine ⟨?_, fun e he => absurd he (hnone e), fun _ => ?_⟩
    · rw [put_of_carries hcarries, hencode]
      exact (writes_iff hT).1 hwrites.unlogged
    · obtain ⟨calls, hcalls, hexact⟩ := hwrites.exact
      rw [List.nil_append] at hcalls
      rw [hcalls]
      refine ⟨xs, hencode, hexact, ?_⟩
      have hsent : calls.flatMap (fun call => call.sent.descriptors) =
          Stream.descriptors (calls.flatMap WriteCall.sent) := List.flatMap_assoc.symm
      rw [hsent, hexact.sent]
      split
      · next hnothing => rw [hnothing, Stream.tagged_nil, Stream.descriptors_nil]
      · next hsome => exact Stream.descriptors_tagged hsome _

/-- A message with a descriptor, and a transport that is interrupted before and behind the first
octet, takes three more and has lost its peer then. -/
theorem put_exact_piecewise :
    let T := Scripted.transport .full
    let t : Scripted := { writes := [.fault (.plain .interrupted), .accept 1,
      .fault (.plain .interrupted), .accept 3, .fault (.plain .brokenPipe)] }
    let out := put T.logged {} (.envelope ⟨⟨"ok", []⟩, some ⟨"log"⟩⟩) ⟨t, []⟩
    T.Lawful ∧ out.1 = .error .closed ∧
      (∃ xs, Exact xs (some ⟨"log"⟩) out.2.calls out.1) ∧
      out.2.calls.map WriteCall.accepted = [[], [1], [], [1, 0, 0], []] ∧
      out.2.calls.flatMap (fun call => call.sent.descriptors) = [⟨"log"⟩] := by
  intro T t out
  have hT : T.Lawful := Scripted.transport_lawful .full
  obtain ⟨-, -, hwritten⟩ := put_exact T hT {} (.envelope ⟨⟨"ok", []⟩, some ⟨"log"⟩⟩) t
  obtain ⟨xs, -, hexact, hdescriptors⟩ := hwritten fun e h => by
    cases (unsendable_iff fun _ => rfl).1 h
  have hcalls : out.2.calls.map WriteCall.accepted = [[], [1], [], [1, 0, 0], []] := by decide
  refine ⟨hT, rfl, ⟨xs, hexact⟩, hcalls, ?_⟩
  rw [hdescriptors, List.flatMap_def, hcalls]
  rfl

/-! ## A sender that sends one item after the other -/

/-- Sends one item after the other, until a call fails. -/
def putEach (T : Transport τ) (c : Channel) : List Item → τ → Except ChannelError Unit × τ
  | [], t => (.ok (), t)
  | item :: items, t =>
    match put T c item t with
    | (.ok (), t) => putEach T c items t
    | (.error e, t) => (.error e, t)

/-- What a sender that sends one item after the other has put on its way. -/
def putStream (T : Transport τ) (c : Channel) (items : List Item) (t : τ) : Stream :=
  (putEach T.logged c items ⟨t, []⟩).2.calls.flatMap WriteCall.sent

/-- Its calls put the items on their way that it gets to, up to somewhere in the last of them. -/
theorem putEach_sent (hT : T.Lawful) (c : Channel) (items : List Item) (t : Logged τ) :
    ∃ calls reached, (putEach T.logged c items t).2.calls = t.calls ++ calls ∧
      reached <+: items ∧ (∀ item ∈ reached, ∃ xs, item.encode c.limit = .ok xs) ∧
      calls.flatMap WriteCall.sent <+: reached.flatMap Item.stream := by
  induction items generalizing t with
  | nil =>
    exact ⟨[], [], (List.append_nil _).symm, List.prefix_rfl, List.forall_mem_nil _,
      List.prefix_rfl⟩
  | cons item items ih =>
    by_cases hrefused : ∃ e, Unsendable T.carriesDescriptors c.limit item e
    · obtain ⟨e, he⟩ := hrefused
      rw [putEach, put_of_unsendable (T := T.logged) he]
      exact ⟨[], [], (List.append_nil _).symm, List.nil_prefix, List.forall_mem_nil _,
        List.prefix_rfl⟩
    · have hnone : ∀ e, ¬ Unsendable T.carriesDescriptors c.limit item e :=
        fun e he => hrefused ⟨e, he⟩
      obtain ⟨xs, hencode⟩ := encode_of_sendable hnone
      have hput := put_of_carries (T := T.logged) (c := c) (carries_of_sendable hnone) t
      rw [hencode] at hput
      obtain ⟨calls, hcalls, hexact⟩ :=
        ((writes_iff (Transport.logged_lawful hT)).2 hput.symm).exact
      have hstream : item.stream = Stream.tagged xs item.descriptor := by
        rw [Item.stream, Item.octets_of_encode hencode]
      rw [putEach]
      generalize put T.logged c item t = out at hcalls hexact ⊢
      obtain ⟨result, t'⟩ := out
      cases result with
      | ok =>
        -- the item is on its way, and the others follow
        obtain ⟨later, reached, hlater, hreached, hencodes, hsent⟩ := ih t'
        refine ⟨calls ++ later, item :: reached, ?_, ?_, ?_, ?_⟩
        · rw [hlater, hcalls, List.append_assoc]
        · exact (List.prefix_cons_inj item).2 hreached
        · exact List.forall_mem_cons.2 ⟨⟨xs, hencode⟩, hencodes⟩
        · rw [List.flatMap_append, hexact.sent, hexact.whole.1 rfl, List.flatMap_cons, hstream]
          exact (List.prefix_append_right_inj _).2 hsent
      | error e =>
        refine ⟨calls, [item], hcalls, ?_, ?_, ?_⟩
        · exact (List.prefix_cons_inj item).2 List.nil_prefix
        · exact List.forall_mem_singleton.2 ⟨xs, hencode⟩
        · rw [hexact.sent, List.flatMap_singleton, hstream]
          exact Stream.tagged_isPrefix hexact.front _

/-- **What is put on its way** is the streams of the items, one behind the other, as far as the
sender comes: of the items that it gets to, each of which has a frame, a front part. -/
theorem putStream_isPrefix (hT : T.Lawful) (c : Channel) (items : List Item) (t : τ) :
    ∃ reached, reached <+: items ∧ (∀ item ∈ reached, ∃ xs, item.encode c.limit = .ok xs) ∧
      putStream T c items t <+: reached.flatMap Item.stream := by
  obtain ⟨calls, reached, hcalls, hreached, hencodes, hsent⟩ := putEach_sent hT c items ⟨t, []⟩
  refine ⟨reached, hreached, hencodes, ?_⟩
  rwa [putStream, hcalls, List.nil_append]

end Channel

end Overseer
