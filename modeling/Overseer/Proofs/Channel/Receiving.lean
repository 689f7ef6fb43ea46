import Overseer.Channel.Basic
import Overseer.Proofs.Frame.Stability

/-!
# Receiving, without a bound on the reads

`Channel.nextFrame` counts its reads so that it ends by recursion. `Channel.Fetches` says what it
does without the count: it settles, or it reads and goes on, waits or fails. On a lawful transport
the count is never used up, so the two are the same (`fetches_iff`), and a fact about a receiving
call is proved by induction on `Fetches`, with one case for each way in which a read can end.

`Channel.call` is a receiving call of either kind, and `Ask.accept` what it makes of a frame.
-/

namespace Overseer

namespace Channel

variable {τ : Type} {T : Transport τ} {c c' : Channel} {t t' : τ}

/-! ## Settling and absorbing -/

/-- How a channel has an answer without a read. -/
inductive Settles (c : Channel) : Reception (Frame × Option Descriptor) → Channel → Prop
  /-- The buffer starts with what is no frame, and stays as it is. -/
  | refused {e : ChannelError} (h : Frame.decode c.limit c.buffer = .error e) :
      Settles c (.failed e) c
  /-- A frame without a flag is taken off the buffer. -/
  | plain {frame : Frame} {rest : Octets}
      (h : Frame.decode c.limit c.buffer = .ok (some (frame, rest)))
      (hf : frame.flagged = false) : Settles c (.item (frame, none)) { c with buffer := rest }
  /-- A flagged frame takes the oldest descriptor along. -/
  | flagged {frame : Frame} {rest : Octets} {d : Descriptor} {ds : List Descriptor}
      (h : Frame.decode c.limit c.buffer = .ok (some (frame, rest))) (hf : frame.flagged = true)
      (hd : c.descriptors = d :: ds) :
      Settles c (.item (frame, some d)) { c with buffer := rest, descriptors := ds }
  /-- A flagged frame for which no descriptor has come is a violation, and is gone. -/
  | missing {frame : Frame} {rest : Octets}
      (h : Frame.decode c.limit c.buffer = .ok (some (frame, rest))) (hf : frame.flagged = true)
      (hd : c.descriptors = []) :
      Settles c (.failed (.violation .missingDescriptor)) { c with buffer := rest }
  /-- The stream has ended behind a frame. -/
  | atEnd (h : Frame.decode c.limit c.buffer = .ok none) (hc : c.ended = true)
      (hempty : c.buffer = []) : Settles c .ended c
  /-- The stream has ended inside of a frame. -/
  | cutShort (h : Frame.decode c.limit c.buffer = .ok none) (hc : c.ended = true)
      (hne : c.buffer ≠ []) :
      Settles c (.failed (.violation (.cutShort c.buffer.length))) c

/-- **What a channel answers without a read.** -/
theorem settles_iff {answer : Reception (Frame × Option Descriptor)} :
    c.settled? = some (answer, c') ↔ Settles c answer c' := by
  constructor
  · intro h
    unfold settled? at h
    split at h
    · next hdec =>
      cases h
      exact .refused hdec
    · next hdec =>
      simp only at h
      split at h
      · next hf =>
        split at h
        · next hd =>
          cases h
          exact .missing hdec hf hd
        · next hd =>
          cases h
          exact .flagged hdec hf hd
      · next hf =>
        cases h
        exact .plain hdec (Bool.eq_false_iff.2 hf)
    · next hdec =>
      split at h
      · next hc =>
        split at h
        · next hempty =>
          cases h
          exact .atEnd hdec hc (List.isEmpty_iff.1 hempty)
        · next hempty =>
          cases h
          exact .cutShort hdec hc fun hnil => hempty (List.isEmpty_iff.2 hnil)
      · cases h
  · intro h
    cases h with
    | refused h => rw [settled?, h]
    | plain h hf => simp [settled?, h, hf]
    | flagged h hf hd | missing h hf hd => simp [settled?, h, hf, hd]
    | atEnd h hc hempty =>
      rw [settled?, h]
      simp [hc, hempty]
    | cutShort h hc hne =>
      rw [settled?, h]
      simp [hc, hne]

/-- A channel has no answer exactly while its stream is open and its buffer decides nothing. -/
theorem settled?_eq_none :
    c.settled? = none ↔ Frame.decode c.limit c.buffer = .ok none ∧ c.ended = false := by
  constructor
  · intro hnone
    unfold settled? at hnone
    split at hnone
    · cases hnone
    · simp only at hnone
      split at hnone
      · split at hnone <;> cases hnone
      · cases hnone
    · next hdec =>
      split at hnone
      · split at hnone <;> cases hnone
      · next hc => exact ⟨hdec, Bool.eq_false_iff.2 hc⟩
  · rintro ⟨hdec, hopen⟩
    simp [settled?, hdec, hopen]

/-- A channel whose stream has ended always has an answer. -/
theorem settled?_of_ended (h : c.ended = true) : c.settled? ≠ none := by
  intro hnone
  rw [(settled?_eq_none.1 hnone).2] at h
  cases h

/-- Octets that are read go behind those buffered, and their descriptors behind those held. -/
theorem absorb_data {xs : Octets} (h : xs ≠ []) (ds : List Descriptor) :
    c.absorb (.data xs ds) =
      (none, { c with buffer := c.buffer ++ xs, descriptors := c.descriptors ++ ds }) := by
  simp [absorb, Reading.data, h]

/-- The end of the stream is noted. -/
theorem absorb_atEnd : c.absorb .atEnd = (none, { c with ended := true }) := by
  simp [absorb, Reading.atEnd, Reading.data]

/-- A peer that is gone ends the stream too. -/
theorem absorb_reset {e : IoError} (h : e.kind = .connectionReset) :
    c.absorb (.failure e) = (none, { c with ended := true }) := by
  simp [absorb, Reading.failure, h]

/-- An interrupted read is tried again, or reported. -/
theorem absorb_interrupted {e : IoError} (h : e.kind = .interrupted) :
    c.absorb (.failure e) = (if c.interruptible then some .interrupted else none, c) := by
  simp only [absorb, Reading.failure, h, List.append_nil]
  split <;> rfl

/-- Any other failure of a read fails the call. -/
theorem absorb_failure {e : IoError} (h : e.kind ≠ .interrupted) (h' : e.kind ≠ .connectionReset) :
    c.absorb (.failure e) = (some (.io e), c) := by
  simp [absorb, Reading.failure]

/-- A reading after which a call goes on: it brought octets, it ended the stream, or it was
interrupted and is tried again. -/
theorem absorb_eq_none {r : Reading} (h : c.absorb r = (none, c')) :
    (∃ xs, r.result = .ok xs ∧ xs ≠ [] ∧
      c' = { c with buffer := c.buffer ++ xs, descriptors := c.descriptors ++ r.descriptors }) ∨
    ((r.result = .ok [] ∨ ∃ e, r.result = .error e ∧ e.kind = .connectionReset) ∧
      c' = { c with descriptors := c.descriptors ++ r.descriptors, ended := true }) ∨
    ((∃ e, r.result = .error e ∧ e.kind = .interrupted) ∧ c.interruptible = false ∧
      c' = { c with descriptors := c.descriptors ++ r.descriptors }) := by
  unfold absorb at h
  simp only at h
  split at h
  · next xs hr =>
    split at h
    · next hempty =>
      obtain rfl := List.isEmpty_iff.1 hempty
      cases h
      exact .inr (.inl ⟨.inl hr, rfl⟩)
    · next hempty =>
      cases h
      exact .inl ⟨xs, hr, fun hnil => hempty (List.isEmpty_iff.2 hnil), rfl⟩
  · next e hr =>
    split at h
    · next hkind =>
      split at h
      · cases h
      · next hretry =>
        cases h
        exact .inr (.inr ⟨⟨e, hr, hkind⟩, Bool.eq_false_iff.2 hretry, rfl⟩)
    · next hkind =>
      cases h
      exact .inr (.inl ⟨.inr ⟨e, hr, hkind⟩, rfl⟩)
    · cases h

/-- A reading that fails the call: it was interrupted and the channel reports that, or it failed in
another way than by a reset. It leaves its descriptors. -/
theorem absorb_eq_some {r : Reading} {e : ChannelError} (h : c.absorb r = (some e, c')) :
    c' = { c with descriptors := c.descriptors ++ r.descriptors } ∧
      ∃ cause, r.result = .error cause ∧
        (cause.kind = .interrupted ∧ c.interruptible = true ∧ e = .interrupted ∨
          cause.kind ≠ .interrupted ∧ cause.kind ≠ .connectionReset ∧ e = .io cause) := by
  unfold absorb at h
  simp only at h
  split at h
  · split at h <;> cases h
  · next cause hr =>
    split at h
    · next hkind =>
      split at h
      · next hreport =>
        cases h
        exact ⟨rfl, cause, hr, .inl ⟨hkind, hreport, rfl⟩⟩
      · cases h
    · cases h
    · next hinterrupted hreset =>
      cases h
      exact ⟨rfl, cause, hr, .inr ⟨hinterrupted, hreset, rfl⟩⟩

/-- A reading after which nobody would read again ends the stream, or fails the call. -/
theorem ended_of_absorb {r : Reading} (h : c.absorb r = (none, c')) (hr : r.continues = false) :
    c'.ended = true := by
  rcases absorb_eq_none h with ⟨xs, hxs, hne, -⟩ | ⟨-, rfl⟩ | ⟨⟨e, he, hkind⟩, -, -⟩
  · cases xs with
    | nil => exact absurd rfl hne
    | cons x xs => simp [Reading.continues, hxs] at hr
  · rfl
  · simp [Reading.continues, he, hkind] at hr

theorem interruptible_absorb {r : Reading} {failure : Option ChannelError}
    (h : c.absorb r = (failure, c')) : c'.interruptible = c.interruptible := by
  cases failure with
  | some e => rw [(absorb_eq_some h).1]
  | none => rcases absorb_eq_none h with ⟨_, _, _, rfl⟩ | ⟨_, rfl⟩ | ⟨_, _, rfl⟩ <;> rfl

theorem interruptible_settled {answer : Reception (Frame × Option Descriptor)}
    (h : c.settled? = some (answer, c')) : c'.interruptible = c.interruptible := by
  cases settles_iff.1 h <;> rfl

/-! ## The loop of reads -/

/-- What a call for the next frame comes to: it settles on what is buffered, or it reads, and then
waits, fails or goes on. -/
inductive Fetches (T : Transport τ) :
    Channel → τ → Reception (Frame × Option Descriptor) × Channel × τ → Prop
  /-- The buffer has the answer. -/
  | settled {c c' : Channel} {t : τ} {answer : Reception (Frame × Option Descriptor)}
      (h : c.settled? = some (answer, c')) : Fetches T c t (answer, c', t)
  /-- The read waits for ever on what the transport has been told. -/
  | dry {c : Channel} {t t' : τ} (h : c.settled? = none)
      (hread : T.read t chunkSize = (none, t')) : Fetches T c t (.waiting, c, t')
  /-- The read fails the call. -/
  | broken {c c' : Channel} {t t' : τ} {r : Reading} {e : ChannelError} (h : c.settled? = none)
      (hread : T.read t chunkSize = (some r, t')) (habsorb : c.absorb r = (some e, c')) :
      Fetches T c t (.failed e, c', t')
  /-- The call goes on with what was read. -/
  | onward {c c' : Channel} {t t' : τ} {r : Reading}
      {out : Reception (Frame × Option Descriptor) × Channel × τ} (h : c.settled? = none)
      (hread : T.read t chunkSize = (some r, t')) (habsorb : c.absorb r = (none, c'))
      (hrest : Fetches T c' t' out) : Fetches T c t out

/-- No call changes whether the channel reports an interruption. -/
theorem Fetches.interruptible_eq {out : Reception (Frame × Option Descriptor) × Channel × τ}
    (h : Fetches T c t out) : out.2.1.interruptible = c.interruptible := by
  induction h with
  | settled h => exact interruptible_settled h
  | dry => rfl
  | broken _ _ habsorb => exact interruptible_absorb habsorb
  | onward _ _ habsorb _ ih => exact ih.trans (interruptible_absorb habsorb)

/-- A call comes to one thing only. -/
theorem Fetches.unique {out out' : Reception (Frame × Option Descriptor) × Channel × τ}
    (h : Fetches T c t out) (h' : Fetches T c t out') : out = out' := by
  induction h with
  | settled h =>
    cases h' with
    | settled h₁ => rw [h] at h₁; cases h₁; rfl
    | dry h₁ | broken h₁ | onward h₁ => rw [h] at h₁; cases h₁
  | dry h hread =>
    cases h' with
    | settled h₁ => rw [h] at h₁; cases h₁
    | dry _ hread₁ => rw [hread] at hread₁; cases hread₁; rfl
    | broken _ hread₁ | onward _ hread₁ => rw [hread] at hread₁; cases hread₁
  | broken h hread habsorb =>
    cases h' with
    | settled h₁ => rw [h] at h₁; cases h₁
    | dry _ hread₁ => rw [hread] at hread₁; cases hread₁
    | broken _ hread₁ habsorb₁ =>
      rw [hread] at hread₁; cases hread₁
      rw [habsorb] at habsorb₁; cases habsorb₁; rfl
    | onward _ hread₁ habsorb₁ =>
      rw [hread] at hread₁; cases hread₁
      rw [habsorb] at habsorb₁; cases habsorb₁
  | onward h hread habsorb _ ih =>
    cases h' with
    | settled h₁ => rw [h] at h₁; cases h₁
    | dry _ hread₁ => rw [hread] at hread₁; cases hread₁
    | broken _ hread₁ habsorb₁ =>
      rw [hread] at hread₁; cases hread₁
      rw [habsorb] at habsorb₁; cases habsorb₁
    | onward _ hread₁ habsorb₁ hrest₁ =>
      rw [hread] at hread₁; cases hread₁
      rw [habsorb] at habsorb₁; cases habsorb₁
      exact ih hrest₁

/-- The count of reads suffices if it exceeds what flows in by two: one read for the end of the
stream and one look at the buffer behind it. At an ended channel the look is enough. -/
theorem nextFrameWithin_fetches (hT : T.Lawful) {reads : Nat}
    (h : T.inflow t + 2 ≤ reads ∨ c.ended = true ∧ 1 ≤ reads) :
    Fetches T c t (nextFrameWithin T reads c t) := by
  induction reads generalizing c t with
  | zero => omega
  | succ reads ih =>
    rw [nextFrameWithin]
    split
    · next hsettled => exact .settled hsettled
    · next hsettled =>
      have hbound : T.inflow t + 2 ≤ reads + 1 := by
        rcases h with h | ⟨hended, -⟩
        · exact h
        · exact absurd hsettled (settled?_of_ended hended)
      split
      · next hread => exact .dry hsettled hread
      · next r t' hread =>
        split
        · next habsorb => exact .broken hsettled hread habsorb
        · next habsorb =>
          refine .onward hsettled hread habsorb (ih ?_)
          cases hcont : r.continues with
          | true =>
            have := hT.inflow_read _ _ _ _ hread hcont
            exact .inl (by omega)
          | false => exact .inr ⟨ended_of_absorb habsorb hcont, by omega⟩

/-- **On a lawful transport the count of reads plays no part.** -/
theorem fetches_iff (hT : T.Lawful) {out : Reception (Frame × Option Descriptor) × Channel × τ} :
    Fetches T c t out ↔ nextFrame T c t = out := by
  have hrun : Fetches T c t (nextFrame T c t) :=
    nextFrameWithin_fetches hT (.inl (Nat.le_refl _))
  constructor
  · intro h
    exact hrun.unique h
  · rintro rfl
    exact hrun

end Channel

/-! ## The two receiving calls -/

/-- Which of the two receiving calls is made. -/
inductive Ask where
  | message
  | scalar
  deriving DecidableEq, Inhabited

/-- What is sent at once, and what a call hands over that received it. -/
inductive Item where
  | envelope (envelope : Envelope)
  | scalar (data : Octets)
  deriving DecidableEq, Inhabited

/-- The call that is meant for an item. -/
def Item.ask : Item → Ask
  | envelope _ => .message
  | scalar _ => .scalar

/-- Changes what was received. -/
def Reception.map {α β : Type} (f : α → β) : Reception α → Reception β
  | item value => item (f value)
  | ended => ended
  | failed e => failed e
  | waiting => waiting

/-- What a call of either kind makes of a frame. One of the wrong kind fails it. -/
def Ask.accept : Ask → Reception (Frame × Option Descriptor) → Reception Item
  | message, .item (.message m _, d) => .item (.envelope ⟨m, d⟩)
  | message, .item (.scalar xs flagged, _) =>
    .failed (.unexpected "message" (Frame.scalar xs flagged).kindName)
  | scalar, .item (.scalar xs _, _) => .item (.scalar xs)
  | scalar, .item (.message m flagged, _) =>
    .failed (.unexpected "scalar" (Frame.message m flagged).kindName)
  | _, .ended => .ended
  | _, .failed e => .failed e
  | _, .waiting => .waiting

/-- What receiving a message makes of a frame. -/
def Reception.toEnvelope : Reception (Frame × Option Descriptor) → Reception Envelope
  | item (.message m _, d) => item ⟨m, d⟩
  | item (frame, _) => failed (.unexpected "message" frame.kindName)
  | ended => ended
  | failed e => failed e
  | waiting => waiting

/-- Whether it was a read that failed a call. -/
def ChannelError.ofRead : ChannelError → Bool
  | io _ | interrupted => true
  | _ => false

/-- Whether a call is through: it has returned, and no read failed it. -/
def Reception.completed {α : Type} : Reception α → Bool
  | item _ | ended => true
  | failed e => !e.ofRead
  | waiting => false

/-- What a call makes of a frame does not decide whether it is through. -/
theorem Ask.completed_accept (ask : Ask) (r : Reception (Frame × Option Descriptor)) :
    (ask.accept r).completed = r.completed := by
  cases r with
  | item value =>
    obtain ⟨frame, d⟩ := value
    cases ask <;> cases frame <;> rfl
  | ended | failed | waiting => cases ask <;> rfl

namespace Channel

/-- An answer that a channel has without a read is no failure of a read, and it does not wait. -/
theorem completed_of_settled {c c' : Channel} {answer : Reception (Frame × Option Descriptor)}
    (h : c.settled? = some (answer, c')) : answer.completed = true := by
  cases settles_iff.1 h with
  | refused hdec =>
    obtain ⟨_, _, rfl⟩ | ⟨_, rfl⟩ := Frame.cause_of_decode hdec
    · rfl
    · rfl
  | _ => rfl

variable {τ : Type}

/-- Receiving a message looks only at the frame that it fetches. -/
theorem receive_eq (T : Transport τ) (c : Channel) (t : τ) :
    receive T c t = ((nextFrame T c t).1.toEnvelope, (nextFrame T c t).2) := by
  unfold receive
  generalize nextFrame T c t = out
  obtain ⟨r, c', t'⟩ := out
  cases r with
  | item value =>
    obtain ⟨frame, d⟩ := value
    cases frame <;> rfl
  | ended | failed | waiting => rfl

/-- A receiving call of either kind. -/
def call (T : Transport τ) (ask : Ask) (c : Channel) (t : τ) : Reception Item × Channel × τ :=
  match ask with
  | .message =>
    let (r, c, t) := receive T c t
    (r.map .envelope, c, t)
  | .scalar =>
    let (r, c, t) := receiveScalar T c t
    (r.map .scalar, c, t)

/-- A call looks only at the frame that it fetches. -/
theorem call_eq (T : Transport τ) (ask : Ask) (c : Channel) (t : τ) :
    call T ask c t = (ask.accept (nextFrame T c t).1, (nextFrame T c t).2) := by
  cases ask with
  | message =>
    simp only [call, receive]
    generalize nextFrame T c t = out
    obtain ⟨r, c', t'⟩ := out
    cases r with
    | item value =>
      obtain ⟨frame, d⟩ := value
      cases frame <;> rfl
    | ended | failed | waiting => rfl
  | scalar =>
    simp only [call, receiveScalar]
    generalize nextFrame T c t = out
    obtain ⟨r, c', t'⟩ := out
    cases r with
    | item value =>
      obtain ⟨frame, d⟩ := value
      cases frame <;> rfl
    | ended | failed | waiting => rfl

end Channel

end Overseer
