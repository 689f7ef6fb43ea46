import Overseer.Proofs.Channel.CutOff
import Overseer.Proofs.Channel.Demand

/-!
# Receiving calls that fail

A receiving call that fails has taken in what it has read, and leaves of that either everything or
everything but one frame (`Spoils`): it keeps what starts with no frame, and a part of one; a frame
that it cannot hand over is gone, with its descriptor if there is one (`Concludes.spoils`).

What is no frame stays so, and every later call fails in the same way without reading
(`callEach_of_final`). A limit is the exception: if a frame was too large, and the limit is raised,
then the calls go on as if the higher limit had been there before (`Fetches.raised`,
`callEach_withLimit`). `failed_call` has this side by side, for each way in which a call can fail.
-/

namespace Overseer

/-- The call that is meant for a frame. -/
def Frame.ask : Frame → Ask
  | message .. => .message
  | scalar .. => .scalar

namespace Ask

/-- The call of the other kind. -/
def other : Ask → Ask
  | message => scalar
  | scalar => message

/-- The name of what a call is meant for. -/
def kindName : Ask → String
  | message => "message"
  | scalar => "scalar"

/-- A call that fails has no frame, or one of the other kind. -/
theorem accept_eq_failed {ask : Ask} {answer : Reception (Frame × Option Descriptor)}
    {e : ChannelError} (h : ask.accept answer = .failed e) :
    answer = .failed e ∨ ∃ frame d, answer = .item (frame, d) ∧ frame.ask = ask.other ∧
      e = .unexpected ask.kindName frame.kindName := by
  cases answer with
  | item value =>
    obtain ⟨frame, d⟩ := value
    refine .inr ⟨frame, d, rfl, ?_⟩
    cases ask <;> cases frame <;> cases h <;> exact ⟨rfl, rfl⟩
  | failed => cases ask <;> cases h <;> exact .inl rfl
  | ended | waiting => cases ask <;> cases h

/-- The call of the other kind receives what a call has no use for. -/
theorem accept_other {ask : Ask} {frame : Frame} (h : frame.ask = ask.other)
    (d : Option Descriptor) : ∃ item, ask.other.accept (.item (frame, d)) = .item item := by
  cases ask <;> cases frame <;> cases h <;> exact ⟨_, rfl⟩

end Ask

namespace ChannelError

/-- A frame is too large for the limit. -/
def isTooLarge : ChannelError → Bool
  | tooLarge .. => true
  | _ => false

/-- Whether a failure says of what is held that it is no frame, or never becomes one. -/
def final : ChannelError → Bool
  | tooLarge .. => true
  | violation cause => cause != .missingDescriptor
  | _ => false

/-- A read that fails says nothing of what is held. -/
theorem final_of_ofRead {e : ChannelError} (h : e.ofRead = true) : e.final = false := by
  cases e with
  | io | interrupted => rfl
  | _ => cases h

end ChannelError

/-! ## Decoding -/

namespace Frame

theorem takeElement_error {body : Octets} {cause : Violation}
    (h : takeElement body = .error cause) : cause = .elementPastEnd := by
  unfold takeElement at h
  split at h
  · cases h
    rfl
  · split at h <;> cases h
    rfl

theorem takeElements_error {count : Nat} {taken : List Octets} {body : Octets} {cause : Violation}
    (h : takeElements count taken body = .error cause) : cause = .elementPastEnd := by
  induction count generalizing taken body with
  | zero => cases h
  | succ count ih =>
    rw [takeElements] at h
    split at h
    · next he =>
      cases h
      exact takeElement_error he
    · exact ih h

theorem readName_error {xs : Octets} {cause : Violation} (h : readName xs = .error cause) :
    cause = .nameNotText ∨ cause = .emptyName := by
  unfold readName at h
  split at h
  · cases h
    exact .inl rfl
  · split at h <;> cases h
    exact .inr rfl

theorem readMessage_ne_missingDescriptor {body : Octets} :
    readMessage body ≠ .error .missingDescriptor := by
  intro h
  unfold readMessage at h
  split at h
  · cases h
  · split at h
    · cases h
    · split at h
      · next he =>
        cases h
        cases takeElement_error he
      · split at h
        · next he =>
          cases h
          rcases readName_error he with he | he <;> cases he
        · split at h
          · next he =>
            cases h
            cases takeElements_error he
          · split at h <;> cases h

/-- The body of a frame says nothing about descriptors. -/
theorem read_ne_missingDescriptor {kind : UInt8} {flagged : Bool} {body : Octets} :
    read kind flagged body ≠ .error .missingDescriptor := by
  intro h
  unfold read at h
  split at h
  · split at h <;> cases h
    next he => exact readMessage_ne_missingDescriptor he
  · split at h <;> cases h

/-- **A higher limit changes nothing** but for the frames that were too large. -/
theorem decode_raised {limit limit' : Nat} {xs : Octets} (hle : limit ≤ limit')
    (h : ∀ e, decode limit xs = .error e → e.isTooLarge = false) :
    decode limit' xs = decode limit xs := by
  have hsize {size : Nat} (hsize : checkSize size limit = .ok ()) :
      checkSize size limit' = .ok () := by
    rw [checkSize_eq_ok] at hsize ⊢
    exact ⟨Nat.le_trans hsize.1 hle, hsize.2⟩
  cases hdec : decode limit xs with
  | ok out =>
    cases out with
    | some out => exact decode_mono hle hdec
    | none =>
      refine decode_eq_none.2 ((decode_eq_none.1 hdec).imp_right ?_)
      rintro ⟨kind, flags, a, b, c, d, tail, hxs, hadmitted, hlt⟩
      exact ⟨kind, flags, a, b, c, d, tail, hxs, hsize hadmitted, hlt⟩
  | error e =>
    obtain ⟨kind, flags, a, b, c, d, tail, hxs, hlarge | ⟨hadmitted, hbody⟩⟩ :=
      decode_eq_error.1 hdec
    · have hno := h e hdec
      rw [checkSize_eq_error hlarge] at hno
      cases hno
    · exact decode_eq_error.2
        ⟨kind, flags, a, b, c, d, tail, hxs, .inr ⟨hsize hadmitted, hbody⟩⟩

end Frame

namespace Channel

variable {τ : Type} {T : Transport τ} {c c' : Channel} {t t' : τ} {e : ChannelError}

/-! ## What is left -/

/-- What a call that fails leaves of `held`, which is all that it has taken in. -/
inductive Spoils (ask : Ask) (held : Channel) : ChannelError → Channel → Prop
  /-- What is held starts with no frame, and is kept. -/
  | refused {e : ChannelError} (he : e.final = true)
      (h : Frame.decode held.limit held.buffer = .error e) : Spoils ask held e held
  /-- The stream has ended inside of a frame, and what is held of it is kept. -/
  | cutShort (h : Frame.decode held.limit held.buffer = .ok none) (hended : held.ended = true)
      (hne : held.buffer ≠ []) :
      Spoils ask held (.violation (.cutShort held.buffer.length)) held
  /-- A frame of the other kind is gone. -/
  | unexpected {frame : Frame} {rest : Octets}
      (h : Frame.decode held.limit held.buffer = .ok (some (frame, rest)))
      (hkind : frame.ask = ask.other) (hf : frame.flagged = false) :
      Spoils ask held (.unexpected ask.kindName frame.kindName) { held with buffer := rest }
  /-- A frame of the other kind is gone, and its descriptor with it. -/
  | unexpectedFlagged {frame : Frame} {rest : Octets} {d : Descriptor} {ds : List Descriptor}
      (h : Frame.decode held.limit held.buffer = .ok (some (frame, rest)))
      (hkind : frame.ask = ask.other) (hf : frame.flagged = true)
      (hd : held.descriptors = d :: ds) :
      Spoils ask held (.unexpected ask.kindName frame.kindName)
        { held with buffer := rest, descriptors := ds }
  /-- A flagged frame is gone, and there is no descriptor left. -/
  | missing {frame : Frame} {rest : Octets}
      (h : Frame.decode held.limit held.buffer = .ok (some (frame, rest)))
      (hf : frame.flagged = true) (hd : held.descriptors = []) :
      Spoils ask held (.violation .missingDescriptor) { held with buffer := rest }
  /-- The last read has failed, and what is held decides nothing yet. -/
  | unread {e : ChannelError} (he : e.ofRead = true)
      (h : Frame.decode held.limit held.buffer = .ok none) (hopen : held.ended = false) :
      Spoils ask held e held

/-- What is no frame by itself is final. -/
theorem final_of_decode {limit : Nat} {xs : Octets} (h : Frame.decode limit xs = .error e) :
    e.final = true := by
  obtain ⟨_, _, _, _, _, _, _, -, hlarge | ⟨-, _, _, cause, -, -, hread, rfl⟩⟩ :=
    Frame.decode_eq_error.1 h
  · rw [Frame.checkSize_eq_error hlarge]
    rfl
  · refine bne_iff_ne.2 fun hcause => ?_
    rw [hcause] at hread
    exact Frame.read_ne_missingDescriptor hread

/-- **What a call that fails leaves.** -/
theorem Concludes.spoils {held : Channel} {ask : Ask}
    {answer : Reception (Frame × Option Descriptor)} (h : Concludes held answer c')
    (hfail : ask.accept answer = .failed e) : Spoils ask held e c' := by
  cases h with
  | settled hsettled =>
    rcases Ask.accept_eq_failed hfail with rfl | ⟨frame, d, rfl, hkind, rfl⟩
    · cases settles_iff.1 hsettled with
      | refused hdec => exact .refused (final_of_decode hdec) hdec
      | missing hdec hf hd => exact .missing hdec hf hd
      | cutShort hdec hended hne => exact .cutShort hdec hended hne
    · cases settles_iff.1 hsettled with
      | plain hdec hf => exact .unexpected hdec hkind hf
      | flagged hdec hf hd => exact .unexpectedFlagged hdec hkind hf hd
  | waiting => cases ask <;> cases hfail
  | unread he hnone =>
    obtain ⟨hdec, hopen⟩ := settled?_eq_none.1 hnone
    cases ask <;> cases hfail <;> exact .unread he hdec hopen

/-- A call that has not expected a frame has read one of the other kind. -/
theorem Concludes.of_unexpected {held : Channel} {ask : Ask}
    {answer : Reception (Frame × Option Descriptor)} {expected found : String}
    (h : Concludes held answer c')
    (hfail : ask.accept answer = .failed (.unexpected expected found)) :
    ∃ frame d, answer = .item (frame, d) ∧ frame.ask = ask.other := by
  rcases Ask.accept_eq_failed hfail with rfl | ⟨frame, d, rfl, hkind, -⟩
  · -- neither what is held nor a read fails a call like this
    cases h with
    | settled hsettled =>
      cases settles_iff.1 hsettled with
      | refused hdec => cases final_of_decode hdec
    | unread he => cases he
  · exact ⟨frame, d, rfl, hkind⟩

/-! ## What is no frame -/

/-- A channel that has an answer gives it without a read. -/
theorem nextFrame_of_settled {answer : Reception (Frame × Option Descriptor)}
    (h : c.settled? = some (answer, c')) (t : τ) : nextFrame T c t = (answer, c', t) := by
  rw [nextFrame, nextFrameWithin, h]

/-- A failure that says of what is held that it is no frame has left it, and is its answer. -/
theorem Spoils.settled {ask : Ask} {held : Channel} (h : Spoils ask held e c')
    (he : e.final = true) : c'.settled? = some (.failed e, c') := by
  cases h with
  | refused _ hdec => exact settles_iff.2 (.refused hdec)
  | cutShort hdec hended hne => exact settles_iff.2 (.cutShort hdec hended hne)
  | unexpected | unexpectedFlagged | missing => cases he
  | unread hread =>
    rw [ChannelError.final_of_ofRead hread] at he
    cases he

/-- What a channel has an answer to does not depend on whether it reports interruptions, and on its
limit only as far as decoding does. -/
theorem settled?_alike {limit : Nat}
    (h : Frame.decode limit c.buffer = Frame.decode c.limit c.buffer) (reports : Bool) :
    ({ c with interruptible := reports, limit } : Channel).settled? =
      c.settled?.map fun out => (out.1, { out.2 with interruptible := reports, limit }) := by
  unfold settled?
  simp only [h]
  split
  · rfl
  · split
    · split <;> rfl
    · rfl
  · split
    · split <;> rfl
    · rfl

/-- **Every later call fails in the same way**, and neither reads nor changes anything. -/
theorem callEach_of_final (h : c.settled? = some (.failed e, c)) (T : Transport τ)
    (asks : List Ask) (t : τ) :
    callEach T asks c t = (asks.map fun _ => .failed e, c, t) := by
  induction asks with
  | nil => rfl
  | cons ask asks ih =>
    have hcall : call T ask c t = (.failed e, c, t) := by
      rw [call_eq, nextFrame_of_settled h]
      cases ask <;> rfl
    rw [callEach, hcall]
    simp only [ih, List.map_cons]

/-! ## Raising the limit -/

/-- What a channel has an answer to does not depend on its limit, unless it says that a frame is too
large. -/
theorem settled?_withLimit {limit : Nat} (hle : c.limit ≤ limit)
    (h : ∀ e, Frame.decode c.limit c.buffer = .error e → e.isTooLarge = false) :
    (c.withLimit limit).settled? = c.settled?.map fun out => (out.1, out.2.withLimit limit) := by
  have hdec : Frame.decode (max limit 1) c.buffer = Frame.decode c.limit c.buffer :=
    Frame.decode_raised (Nat.le_trans hle (Nat.le_max_left ..)) h
  rw [show c.withLimit limit =
    { c with interruptible := c.interruptible, limit := max limit 1 } from rfl, settled?_alike hdec]
  cases hsettled : c.settled? with
  | none => rfl
  | some out =>
    obtain ⟨answer, c'⟩ := out
    simp only [Option.map_some, withLimit, interruptible_settled hsettled]

/-- A reading is taken in whatever the limit. -/
theorem absorb_withLimit (c : Channel) (limit : Nat) (r : Reading) :
    (c.withLimit limit).absorb r = ((c.absorb r).1, (c.absorb r).2.withLimit limit) := by
  obtain ⟨buffer, descriptors, ended, reports, old⟩ := c
  obtain ⟨result, ds⟩ := r
  cases result with
  | ok xs => cases xs <;> rfl
  | error e =>
    simp only [absorb, withLimit]
    cases e.kind <;> cases reports <;> rfl

/-- A channel that has no answer has none under a higher limit. -/
theorem settled?_withLimit_none {limit : Nat} (hle : c.limit ≤ limit) (h : c.settled? = none) :
    (c.withLimit limit).settled? = none := by
  rw [settled?_withLimit hle, h]
  · rfl
  · rintro e hdec
    rw [(settled?_eq_none.1 h).1] at hdec
    cases hdec

/-- **A higher limit changes nothing** in a call for which no frame is too large. -/
theorem Fetches.withLimit {limit : Nat} {out : Reception (Frame × Option Descriptor) × Channel × τ}
    (h : Fetches T c t out) (hle : c.limit ≤ limit)
    (hfits : ∀ e, out.1 = .failed e → e.isTooLarge = false) :
    Fetches T (c.withLimit limit) t (out.1, out.2.1.withLimit limit, out.2.2) := by
  induction h with
  | @settled c c' t answer h =>
    refine .settled ?_
    rw [settled?_withLimit hle, h]
    · rfl
    · intro e hdec
      cases h.symm.trans (settles_iff.2 (.refused hdec))
      exact hfits e rfl
  | dry h hread => exact .dry (settled?_withLimit_none hle h) hread
  | broken h hread habsorb =>
    refine .broken (settled?_withLimit_none hle h) hread ?_
    rw [absorb_withLimit, habsorb]
  | onward h hread habsorb _ ih =>
    refine .onward (settled?_withLimit_none hle h) hread ?_
      (ih (Nat.le_trans (Nat.le_of_eq (limit_absorb habsorb)) hle) hfits)
    rw [absorb_withLimit, habsorb]

/-- **A frame that was too large** is read on with: under a higher limit the call goes on from where
it has failed. -/
theorem Fetches.raised {limit : Nat} (h : Fetches T c t (.failed e, c', t'))
    (hlarge : e.isTooLarge = true) (hle : c.limit ≤ limit)
    {out : Reception (Frame × Option Descriptor) × Channel × τ}
    (hnext : Fetches T (c'.withLimit limit) t' out) : Fetches T (c.withLimit limit) t out := by
  generalize hfailed : (Reception.failed e, c', t') = first at h
  induction h with
  | settled h =>
    cases hfailed
    cases settles_iff.1 h with
    | refused => exact hnext
    | missing | cutShort => cases hlarge
  | dry => cases hfailed
  | broken _ _ habsorb =>
    cases hfailed
    obtain ⟨-, cause, -, ⟨-, -, rfl⟩ | ⟨-, -, rfl⟩⟩ := absorb_eq_some habsorb <;> cases hlarge
  | onward h hread habsorb _ ih =>
    refine .onward (settled?_withLimit_none hle h) hread ?_
      (ih (Nat.le_trans (Nat.le_of_eq (limit_absorb habsorb)) hle) hfailed)
    rw [absorb_withLimit, habsorb]

/-- A higher limit changes nothing in a call for which no frame is too large. -/
theorem call_withLimit (hT : T.Lawful) {limit : Nat} {ask : Ask} {r : Reception Item}
    (h : call T ask c t = (r, c', t')) (hle : c.limit ≤ limit)
    (hfits : ∀ e, r = .failed e → e.isTooLarge = false) :
    call T ask (c.withLimit limit) t = (r, c'.withLimit limit, t') := by
  rw [call_eq] at h ⊢
  obtain ⟨rfl, hstate⟩ := Prod.mk.inj h
  have hfetch := ((fetches_iff hT).2 rfl : Fetches T c t (nextFrame T c t)).withLimit hle ?_
  · rw [(fetches_iff hT).1 hfetch, hstate]
  · intro e hfailed
    refine hfits e ?_
    rw [hfailed]
    cases ask <;> rfl

/-- A frame that was too large is read on with, by a call of either kind. -/
theorem call_raised (hT : T.Lawful) {limit : Nat} {ask : Ask}
    (h : call T ask c t = (.failed e, c', t')) (hlarge : e.isTooLarge = true)
    (hle : c.limit ≤ limit) (ask' : Ask) :
    call T ask' (c.withLimit limit) t = call T ask' (c'.withLimit limit) t' := by
  rw [call_eq] at h
  obtain ⟨hanswer, hstate⟩ := Prod.mk.inj h
  have hfailed : nextFrame T c t = (.failed e, c', t') := by
    rcases Ask.accept_eq_failed hanswer with hfailed | ⟨_, _, _, _, rfl⟩
    · exact Prod.ext hfailed hstate
    · cases hlarge
  have hnext : nextFrame T (c.withLimit limit) t = nextFrame T (c'.withLimit limit) t' :=
    (fetches_iff hT).1
      (((fetches_iff hT).2 hfailed).raised hlarge hle ((fetches_iff hT).2 rfl))
  rw [call_eq, call_eq, hnext]

/-- No call changes the limit. -/
theorem call_limit (hT : T.Lawful) {ask : Ask} {r : Reception Item}
    (h : call T ask c t = (r, c', t')) : c'.limit = c.limit := by
  have hfetch : Fetches T c t (nextFrame T c t) := (fetches_iff hT).2 rfl
  rw [call_eq] at h
  rw [← hfetch.limit_eq, (Prod.mk.inj h).2]

/-- **A higher limit changes nothing** in calls for which no frame is too large. -/
theorem callEach_withLimit (hT : T.Lawful) {limit : Nat} {asks : List Ask}
    {rs : List (Reception Item)} (h : callEach T asks c t = (rs, c', t')) (hle : c.limit ≤ limit)
    (hfits : ∀ e, .failed e ∈ rs → e.isTooLarge = false) :
    callEach T asks (c.withLimit limit) t = (rs, c'.withLimit limit, t') ∧ c'.limit = c.limit := by
  induction asks generalizing c t rs with
  | nil =>
    cases h
    exact ⟨rfl, rfl⟩
  | cons ask asks ih =>
    obtain ⟨r, c₁, t₁, hcall⟩ : ∃ r c₁ t₁, call T ask c t = (r, c₁, t₁) := ⟨_, _, _, rfl⟩
    obtain ⟨rs', c₂, t₂, hrest⟩ : ∃ rs' c₂ t₂, callEach T asks c₁ t₁ = (rs', c₂, t₂) :=
      ⟨_, _, _, rfl⟩
    simp only [callEach, hcall, hrest] at h
    cases h
    have hlimit := call_limit hT hcall
    obtain ⟨hmore, hlimit'⟩ := ih hrest (hlimit ▸ hle) fun e he =>
      hfits e (List.mem_cons_of_mem _ he)
    have hfirst := call_withLimit hT hcall hle fun e he => hfits e (he ▸ List.mem_cons_self)
    refine ⟨?_, hlimit'.trans hlimit⟩
    simp only [callEach, hfirst, hmore]

/-! ## Failing calls -/

/-- What is true of a call that fails with `e`, that has been made at `c` and `t` and has read `rs`,
and that leaves `c'` and `t'`. -/
structure Fails (T : Transport τ) (ask : Ask) (c : Channel) (t : Noted τ) (e : ChannelError)
    (c' : Channel) (t' : Noted τ) (rs : List (Option Reading)) : Prop where
  answers_eq : t'.answers = t.answers ++ rs
  /-- All octets that were read are taken in, -/
  buffer_eq : (c.absorbing rs).buffer = c.buffer ++ rs.reduceOption.flatMap Reading.octets
  /-- and all descriptors. -/
  descriptors_eq : (c.absorbing rs).descriptors =
    c.descriptors ++ rs.reduceOption.flatMap Reading.descriptors
  /-- They are kept, up to a frame. -/
  spoils : Spoils ask (c.absorbing rs) e c'
  /-- What is no frame, or never becomes one, stays so: later calls, on whatever transport, fail in
  the same way, and neither read nor change anything. -/
  final : e.final = true → ∀ (reports : Bool) {σ : Type} (S : Transport σ) (s : σ)
    (asks : List Ask),
    callEach S asks { c' with interruptible := reports } s =
      (asks.map fun _ => .failed e, { c' with interruptible := reports }, s)
  /-- Behind a frame that was too large, calls under a higher limit go on as if it had been there
  before. -/
  raised : e.isTooLarge = true → ∀ (limit : Nat) (c₀ : Channel) (t₀ : Noted τ)
    (asks₀ : List Ask) (rs₀ : List (Reception Item)), c₀.limit ≤ limit →
    callEach T.noted asks₀ c₀ t₀ = (rs₀, c, t) →
    (∀ e, .failed e ∈ rs₀ → e.isTooLarge = false) → ∀ (ask' : Ask) (asks : List Ask),
    callEach T.noted (asks₀ ++ ask' :: asks) (c₀.withLimit limit) t₀ =
      ((rs₀ ++ (callEach T.noted (ask' :: asks) (c'.withLimit limit) t').1),
        (callEach T.noted (ask' :: asks) (c'.withLimit limit) t').2)
  /-- A frame that was not expected is what the other call would have received, which would have
  left the same. -/
  unexpected : (∃ expected found, e = .unexpected expected found) →
    ∃ item, call T.noted ask.other c t = (.item item, c', t')
  /-- Behind a read that has failed, the next call goes on with what was taken in. -/
  resumed : e.ofRead = true → ∀ ask', ∃ rs' answer,
    (call T.noted ask' c' t').2.2.answers = t.answers ++ (rs ++ rs') ∧
    (call T.noted ask' c' t').1 = ask'.accept answer ∧
    Concludes (c.absorbing (rs ++ rs')) answer (call T.noted ask' c' t').2.1

/-- A call that fails with a read leaves all that it has taken in. -/
theorem Spoils.of_ofRead {ask : Ask} {held : Channel} (h : Spoils ask held e c')
    (he : e.ofRead = true) : c' = held := by
  cases h with
  | refused | cutShort | unread => rfl
  | unexpected | unexpectedFlagged | missing => cases he

/-- **A receiving call that fails changes nothing, or consumes one frame.** Whatever the channel
holds, and whatever the transport brings, the call has taken in what it has read, and no octet and
no descriptor of it is lost but those of a frame that the call cannot hand over. What is refused
stays refused, until a limit that it exceeds is raised; behind any other failure the next call goes
on. -/
theorem failed_call (T : Transport τ) (hT : T.Lawful) (ask : Ask) (c c' : Channel)
    (t t' : Noted τ) (e : ChannelError) (h : call T.noted ask c t = (.failed e, c', t')) :
    ∃ rs, Fails T ask c t e c' t' rs := by
  obtain ⟨rs, hrs, -, hdraws⟩ := call_draws T ask c t
  have hcall := h
  rw [call_eq] at hcall
  obtain ⟨hanswer, hstate⟩ := Prod.mk.inj hcall
  rw [h] at hrs hdraws
  have hspoils := hdraws.concludes.spoils hanswer
  refine ⟨rs, hrs, ?_, ?_, hspoils, ?_, ?_, ?_, ?_⟩
  · rw [absorbing_eq]
  · rw [absorbing_eq]
  · intro hfinal reports σ S s asks
    refine callEach_of_final ?_ S asks s
    have halike := @settled?_alike c' c'.limit rfl reports
    rw [hspoils.settled hfinal] at halike
    exact halike
  · intro hlarge limit c₀ t₀ asks₀ rs₀ hle hearlier hfits ask' asks
    have hR := Transport.noted_lawful hT
    obtain ⟨hearlier', hlimit⟩ := callEach_withLimit hR hearlier hle hfits
    rw [callEach_append, hearlier']
    simp only [callEach]
    rw [call_raised hR h hlarge (hlimit ▸ hle)]
  · rintro ⟨expected, found, rfl⟩
    obtain ⟨frame, d, hframe, hkind⟩ := hdraws.concludes.of_unexpected hanswer
    obtain ⟨item, hitem⟩ := Ask.accept_other hkind d
    refine ⟨item, ?_⟩
    rw [call_eq, hframe, hitem, hstate]
  · intro he ask'
    obtain rfl := hspoils.of_ofRead he
    obtain ⟨rs', hrs', -, hdraws'⟩ := call_draws T ask' (c.absorbing rs) t'
    refine ⟨rs', _, ?_, congrArg Prod.fst (call_eq T.noted ask' (c.absorbing rs) t'), ?_⟩
    · rw [hrs', hrs, List.append_assoc]
    · rw [absorbing_append]
      exact hdraws'.concludes

/-- A scalar, and one behind it that is too large: the second call fails as soon as its length is
read, and when the limit is raised it is received, as if the higher limit had been there from the
start. -/
theorem failed_call_too_large :
    let T := Scripted.transport .full
    let t₀ : Noted Scripted := ⟨{ reads := [.data [2, 0, 0, 0, 0, 1, 7, 2, 0] [],
      .data [0, 0, 0, 2] [], .data [8, 9] []] }, []⟩
    let first := callEach T.noted [.scalar] { limit := 1 } t₀
    let out := call T.noted .scalar first.2.1 first.2.2
    let raised := callEach T.noted [.scalar] (out.2.1.withLimit 2) out.2.2
    T.Lawful ∧ first.1 = [.item (.scalar [7])] ∧ out.1 = .failed (.tooLarge 2 1) ∧
      out.2.1.buffer = [2, 0, 0, 0, 0, 2] ∧ raised.1 = [.item (.scalar [8, 9])] ∧
      (∃ rs, Fails T .scalar first.2.1 first.2.2 (.tooLarge 2 1) out.2.1 out.2.2 rs) ∧
      callEach T.noted [.scalar, .scalar] (({ limit := 1 } : Channel).withLimit 2) t₀ =
        (first.1 ++ raised.1, raised.2) := by
  intro T t₀ first out raised
  have hT : T.Lawful := Scripted.transport_lawful .full
  have hout : out.1 = .failed (.tooLarge 2 1) := by decide
  obtain ⟨rs, hfails⟩ := failed_call T hT .scalar first.2.1 out.2.1 first.2.2 out.2.2
    (.tooLarge 2 1) (Prod.ext hout rfl)
  have hfirst : first.1 = [.item (.scalar [7])] := by decide
  refine ⟨hT, hfirst, hout, by decide, by decide, ⟨rs, hfails⟩, ?_⟩
  refine hfails.raised rfl 2 { limit := 1 } t₀ [.scalar] first.1 (by decide) rfl ?_ .scalar []
  intro e he
  rw [hfirst] at he
  cases List.mem_singleton.1 he

end Channel

end Overseer
