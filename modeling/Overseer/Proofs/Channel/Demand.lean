import Mathlib.Data.List.ReduceOption
import Overseer.Channel.Scripted
import Overseer.Proofs.Channel.Place
import Overseer.Proofs.Process.Inflow

/-!
# Reading on demand

A receiving call reads only while its channel has no answer. `Noted` keeps what each read of a
transport has answered, and changes nothing else (`callEach_noted`); `Channel.absorbing` is a
channel that has taken in some of these answers, and nothing of them is lost (`absorbing_eq`).
`Draws` says what a call comes to whose reads answer `rs`: before each of them its channel has no
answer (`Draws.unsettled`), and what it comes to is the answer of all that it has taken in, or it
leaves that as it is (`Draws.concludes`).

A buffer that decides nothing is shorter than a header and the longest body, so what is read into
it stays within a bound (`length_of_decode_eq_none`). `reads_on_demand` puts the two together for a
run of calls: what is buffered is bounded, and no read is made that is not needed.
-/

namespace Overseer

/-- Whether a read has found the end of the stream, or that the peer is gone. -/
def Reading.ends (r : Reading) : Bool :=
  match r.result with
  | .ok xs => xs.isEmpty
  | .error e => e.kind == .connectionReset

/-- A state of a transport, with what its reads have answered. -/
structure Noted (τ : Type) where
  base : τ
  answers : List (Option Reading) := []

namespace Transport

variable {τ : Type}

/-- A transport that keeps what its reads answer. -/
def noted (T : Transport τ) : Transport (Noted τ) where
  carriesDescriptors := T.carriesDescriptors
  write t xs d := ((T.write t.base xs d).1, ⟨(T.write t.base xs d).2, t.answers⟩)
  read t n :=
    ((T.read t.base n).1, ⟨(T.read t.base n).2, t.answers ++ [(T.read t.base n).1]⟩)
  inflow t := T.inflow t.base
  stalls t := T.stalls t.base

theorem noted_read {T : Transport τ} {t : Noted τ} {t' : τ} {n : Nat} {r : Option Reading}
    (h : T.read t.base n = (r, t')) : T.noted.read t n = (r, ⟨t', t.answers ++ [r]⟩) := by
  simp only [noted, h]

/-- A transport that keeps what its reads answer promises what it did before. -/
theorem noted_lawful {T : Transport τ} (hT : T.Lawful) : T.noted.Lawful where
  inflow_read t n r t' h hr := by
    obtain ⟨hread, rfl⟩ := Prod.mk.injEq .. ▸ h
    exact hT.inflow_read _ n r _ (Prod.ext hread rfl) hr
  write_le t xs d n t' h := by
    obtain ⟨hwrite, rfl⟩ := Prod.mk.injEq .. ▸ h
    exact hT.write_le _ xs d n _ (Prod.ext hwrite rfl)
  stalls_write t xs d n t' h := by
    obtain ⟨hwrite, rfl⟩ := Prod.mk.injEq .. ▸ h
    exact hT.stalls_write _ xs d n _ (Prod.ext hwrite rfl)
  stalls_interrupted t xs d e t' h := by
    obtain ⟨hwrite, rfl⟩ := Prod.mk.injEq .. ▸ h
    exact hT.stalls_interrupted _ xs d e _ (Prod.ext hwrite rfl)

/-- No read brings more octets than are asked for. -/
def Chunked (T : Transport τ) : Prop :=
  ∀ t n r t', T.read t n = (some r, t') → r.octets.length ≤ n

end Transport

theorem Scripted.transport_chunked (carriage : Carriage) : (transport carriage).Chunked := by
  intro t n r t' h
  simp only [transport, read] at h
  split at h
  · cases h
    exact Nat.zero_le n
  · cases h
    exact Nat.zero_le n
  · cases h
    exact List.length_take_le n _

namespace Channel

variable {τ : Type} {T : Transport τ} {c c' : Channel}

/-! ## What has been taken in -/

/-- A reading is taken in like this, whether or not it fails the call. -/
theorem absorb_snd (c : Channel) (r : Reading) :
    (c.absorb r).2 =
      { c with
        buffer := c.buffer ++ r.octets
        descriptors := c.descriptors ++ r.descriptors
        ended := c.ended || r.ends } := by
  obtain ⟨result, ds⟩ := r
  cases result with
  | ok xs => cases xs <;> simp [absorb, Reading.octets, Reading.ends]
  | error e =>
    simp only [absorb, Reading.octets, Reading.ends, List.append_nil]
    split
    · next hkind => split <;> simp [hkind]
    · next hkind => simp [hkind]
    · next hkind => simp [beq_eq_false_iff_ne.2 hkind]

/-- The channel when it has taken in what some reads have answered. A read that waits for ever
brings nothing. -/
def absorbing (c : Channel) (rs : List (Option Reading)) : Channel :=
  rs.reduceOption.foldl (fun c r => (c.absorb r).2) c

@[simp]
theorem absorbing_nil (c : Channel) : c.absorbing [] = c := rfl

@[simp]
theorem absorbing_some (c : Channel) (r : Reading) (rs : List (Option Reading)) :
    c.absorbing (some r :: rs) = (c.absorb r).2.absorbing rs := rfl

@[simp]
theorem absorbing_none (c : Channel) (rs : List (Option Reading)) :
    c.absorbing (none :: rs) = c.absorbing rs := rfl

theorem absorbing_append (c : Channel) (rs rs' : List (Option Reading)) :
    c.absorbing (rs ++ rs') = (c.absorbing rs).absorbing rs' := by
  rw [absorbing, List.reduceOption_append, List.foldl_append]
  rfl

/-- **Nothing is lost of what is read**: it stands behind what was held, in the order of the
reads. -/
theorem absorbing_eq (c : Channel) (rs : List (Option Reading)) :
    c.absorbing rs =
      { c with
        buffer := c.buffer ++ rs.reduceOption.flatMap Reading.octets
        descriptors := c.descriptors ++ rs.reduceOption.flatMap Reading.descriptors
        ended := c.ended || rs.reduceOption.any Reading.ends } := by
  rw [absorbing]
  induction rs.reduceOption generalizing c with
  | nil => simp
  | cons r rs ih =>
    rw [List.foldl_cons, ih, absorb_snd]
    simp [Bool.or_assoc]

/-! ## What a call reads -/

/-- What a call for a frame comes to whose reads answer `rs`. -/
inductive Draws :
    Channel → List (Option Reading) → Reception (Frame × Option Descriptor) → Channel → Prop
  /-- The buffer has the answer. -/
  | settled {c c' : Channel} {answer : Reception (Frame × Option Descriptor)}
      (h : c.settled? = some (answer, c')) : Draws c [] answer c'
  /-- No further read is made. -/
  | spent (c : Channel) : Draws c [] .waiting c
  /-- The read waits for ever. -/
  | dry {c : Channel} (h : c.settled? = none) : Draws c [none] .waiting c
  /-- The read fails the call. -/
  | broken {c c' : Channel} {r : Reading} {e : ChannelError} (h : c.settled? = none)
      (habsorb : c.absorb r = (some e, c')) : Draws c [some r] (.failed e) c'
  /-- The call goes on with what was read. -/
  | onward {c c' c'' : Channel} {r : Reading} {rs : List (Option Reading)}
      {answer : Reception (Frame × Option Descriptor)} (h : c.settled? = none)
      (habsorb : c.absorb r = (none, c')) (hrest : Draws c' rs answer c'') :
      Draws c (some r :: rs) answer c''

/-- **What a call reads** is what its transport keeps of it. -/
theorem nextFrameWithin_draws (reads : Nat) (c : Channel) (t : Noted τ) :
    ∃ rs, (nextFrameWithin T.noted reads c t).2.2.answers = t.answers ++ rs ∧
      (∀ r, some r ∈ rs → ∃ t t', T.read t chunkSize = (some r, t')) ∧
      Draws c rs (nextFrameWithin T.noted reads c t).1
        (nextFrameWithin T.noted reads c t).2.1 := by
  induction reads generalizing c t with
  | zero => exact ⟨[], (List.append_nil _).symm, fun _ h => absurd h List.not_mem_nil, .spent c⟩
  | succ reads ih =>
    rw [nextFrameWithin]
    split
    · next hsettled =>
      exact ⟨[], (List.append_nil _).symm, fun _ h => absurd h List.not_mem_nil, .settled hsettled⟩
    · next hnone =>
      split
      · next hread =>
        obtain ⟨hanswer, rfl⟩ := Prod.mk.injEq .. ▸ hread
        refine ⟨[none], by rw [hanswer], fun r hr => ?_, .dry hnone⟩
        cases List.mem_singleton.1 hr
      · next r t' hread =>
        obtain ⟨hanswer, rfl⟩ := Prod.mk.injEq .. ▸ hread
        have hbase : T.read t.base chunkSize = (some r, (T.read t.base chunkSize).2) :=
          Prod.ext hanswer rfl
        split
        · next habsorb =>
          refine ⟨[some r], by rw [hanswer], fun r' hr => ?_, .broken hnone habsorb⟩
          cases List.mem_singleton.1 hr
          exact ⟨_, _, hbase⟩
        · next c' habsorb =>
          obtain ⟨rs, hrs, hreads, hdraws⟩ := ih c' ⟨(T.read t.base chunkSize).2,
            t.answers ++ [(T.read t.base chunkSize).1]⟩
          refine ⟨some r :: rs, ?_, fun r' hr => ?_, .onward hnone habsorb hdraws⟩
          · rw [hrs, hanswer, List.append_assoc, List.singleton_append]
          · rcases List.mem_cons.1 hr with hr | hr
            · cases hr
              exact ⟨_, _, hbase⟩
            · exact hreads r' hr

/-- Keeping what is read changes nothing else. -/
theorem nextFrameWithin_noted (reads : Nat) (c : Channel) (t : Noted τ) :
    nextFrameWithin T reads c t.base =
      ((nextFrameWithin T.noted reads c t).1, (nextFrameWithin T.noted reads c t).2.1,
        (nextFrameWithin T.noted reads c t).2.2.base) := by
  induction reads generalizing c t with
  | zero => rfl
  | succ reads ih =>
    obtain ⟨r, t', hread⟩ : ∃ r t', T.read t.base chunkSize = (r, t') := ⟨_, _, rfl⟩
    rw [nextFrameWithin, nextFrameWithin, hread, Transport.noted_read hread]
    split
    · rfl
    · cases r with
      | none => rfl
      | some r =>
        simp only
        split
        · rfl
        · next c' _ => exact ih c' ⟨t', _⟩

/-- **No read is made while there is an answer.** Before each read the channel has none. -/
theorem Draws.unsettled {rs : List (Option Reading)}
    {answer : Reception (Frame × Option Descriptor)} (h : Draws c rs answer c')
    {before after : List (Option Reading)} {r : Option Reading}
    (hcut : rs = before ++ r :: after) : (c.absorbing before).settled? = none := by
  induction h generalizing before with
  | settled | spent => cases before <;> cases hcut
  | dry h | broken h =>
    cases before with
    | nil => exact h
    | cons r' before => cases before <;> cases hcut
  | onward h habsorb _ ih =>
    cases before with
    | nil => exact h
    | cons r' before =>
      obtain ⟨rfl, hrest⟩ := List.cons.inj hcut
      rw [absorbing_some, habsorb]
      exact ih hrest

/-- What a call comes to that has taken in all of what it holds. -/
inductive Concludes (held : Channel) : Reception (Frame × Option Descriptor) → Channel → Prop
  /-- What is held has the answer. -/
  | settled {answer : Reception (Frame × Option Descriptor)} {c' : Channel}
      (h : held.settled? = some (answer, c')) : Concludes held answer c'
  /-- The last read waits, or no further read is made. -/
  | waiting : Concludes held .waiting held
  /-- The last read has failed, and what is held has no answer yet. -/
  | unread {e : ChannelError} (he : e.ofRead = true) (h : held.settled? = none) :
      Concludes held (.failed e) held

/-- **What a call comes to** is the answer of all that it has taken in, or it leaves that as it
is. -/
theorem Draws.concludes {rs : List (Option Reading)}
    {answer : Reception (Frame × Option Descriptor)} (h : Draws c rs answer c') :
    Concludes (c.absorbing rs) answer c' := by
  induction h with
  | settled h => exact .settled h
  | spent | dry => exact .waiting
  | broken h habsorb =>
    rw [absorbing_some, habsorb, absorbing_nil]
    obtain ⟨rfl, cause, -, hcause⟩ := absorb_eq_some habsorb
    refine .unread ?_ ?_
    · rcases hcause with ⟨-, -, rfl⟩ | ⟨-, -, rfl⟩ <;> rfl
    · rw [settled?_eq_none] at h ⊢
      exact h
  | onward _ habsorb _ ih =>
    rw [absorbing_some, habsorb]
    exact ih

theorem Draws.limit_eq {rs : List (Option Reading)}
    {answer : Reception (Frame × Option Descriptor)} (h : Draws c rs answer c') :
    c'.limit = c.limit := by
  have hheld : (c.absorbing rs).limit = c.limit := by rw [absorbing_eq]
  cases h.concludes with
  | settled hsettled => rw [limit_settled hsettled, hheld]
  | waiting | unread => exact hheld

/-- What a call reads is known of its channel: whether the stream has ended. -/
theorem Draws.ended_eq {rs : List (Option Reading)}
    {answer : Reception (Frame × Option Descriptor)} (h : Draws c rs answer c') :
    c'.ended = (c.ended || rs.reduceOption.any Reading.ends) := by
  have hheld : (c.absorbing rs).ended = (c.ended || rs.reduceOption.any Reading.ends) := by
    rw [absorbing_eq]
  cases h.concludes with
  | settled hsettled =>
    rw [← hheld]
    cases settles_iff.1 hsettled <;> rfl
  | waiting | unread => exact hheld

/-! ## A run of calls -/

/-- Calls of either kind, one after the other, with what each of them comes to. -/
def callEach (T : Transport τ) :
    List Ask → Channel → τ → List (Reception Item) × Channel × τ
  | [], c, t => ([], c, t)
  | ask :: asks, c, t =>
    let (r, c, t) := call T ask c t
    let (rs, c, t) := callEach T asks c t
    (r :: rs, c, t)

/-- Of some calls the last are made where the first have come to. -/
theorem callEach_append (T : Transport τ) (asks asks' : List Ask) (c : Channel) (t : τ) :
    callEach T (asks ++ asks') c t =
      let first := callEach T asks c t
      let last := callEach T asks' first.2.1 first.2.2
      (first.1 ++ last.1, last.2) := by
  induction asks generalizing c t with
  | nil => rfl
  | cons ask asks ih => simp only [List.cons_append, callEach, ih]

/-- Keeping what is read changes nothing else. -/
theorem call_noted (T : Transport τ) (ask : Ask) (c : Channel) (t : Noted τ) :
    call T ask c t.base =
      ((call T.noted ask c t).1, (call T.noted ask c t).2.1,
        (call T.noted ask c t).2.2.base) := by
  rw [call_eq, call_eq, nextFrame, nextFrameWithin_noted]
  rfl

/-- **Keeping what is read changes nothing else.** -/
theorem callEach_noted (T : Transport τ) (asks : List Ask) (c : Channel) (t : Noted τ) :
    callEach T asks c t.base =
      ((callEach T.noted asks c t).1, (callEach T.noted asks c t).2.1,
        (callEach T.noted asks c t).2.2.base) := by
  induction asks generalizing c t with
  | nil => rfl
  | cons ask asks ih => simp only [callEach, call_noted T ask c t, ih]

/-- **What a call reads**, and what it comes to. -/
theorem call_draws (T : Transport τ) (ask : Ask) (c : Channel) (t : Noted τ) :
    ∃ rs, (call T.noted ask c t).2.2.answers = t.answers ++ rs ∧
      (∀ r, some r ∈ rs → ∃ t t', T.read t chunkSize = (some r, t')) ∧
      Draws c rs (nextFrame T.noted c t).1 (call T.noted ask c t).2.1 := by
  rw [call_eq]
  exact nextFrameWithin_draws (T.noted.inflow t + 2) c t

/-! ## How much is buffered -/

/-- **A buffer that decides nothing is short**: it lacks a header, or a part of the body that its
header announces. -/
theorem length_of_decode_eq_none {limit : Nat} {xs : Octets}
    (h : Frame.decode limit xs = .ok none) : xs.length < limit + Frame.headerSize := by
  rcases Frame.decode_eq_none.1 h with hshort | ⟨kind, flags, a, b, c, d, tail, rfl, hsize, hlt⟩
  · omega
  · have hle := (Frame.checkSize_eq_ok.1 hsize).1
    simp only [List.length_cons, Frame.headerSize]
    omega

/-- What is true of a read that is made at a channel which holds `held`, behind `earlier` reads. -/
structure Needed (limit : Nat) (earlier : List (Option Reading)) (held : Channel)
    (r : Option Reading) : Prop where
  /-- There is neither a frame nor a reason why there is none. -/
  undecided : Frame.decode limit held.buffer = .ok none
  isOpen : held.ended = false
  /-- No read before has found the end of the stream, or that the peer is gone. -/
  not_ended : ∀ r, some r ∈ earlier → r.ends = false
  bounded : (held.absorbing [r]).buffer.length ≤ limit + 8197

/-- What is true of a channel between two calls, whose reads have answered `earlier`. -/
structure Keeps (limit : Nat) (earlier : List (Option Reading)) (c : Channel) : Prop where
  limit_eq : c.limit = limit
  ended_eq : c.ended = earlier.reduceOption.any Reading.ends
  bounded : c.buffer.length ≤ limit + 8197

/-- A channel between two calls reads only what it needs. -/
theorem Keeps.needed {limit : Nat} {earlier rs : List (Option Reading)}
    {answer : Reception (Frame × Option Descriptor)} (hc : Keeps limit earlier c)
    (h : Draws c rs answer c') (hchunks : ∀ r, some r ∈ rs → r.octets.length ≤ chunkSize)
    {before after : List (Option Reading)} {r : Option Reading} (hcut : rs = before ++ r :: after) :
    Needed limit (earlier ++ before) (c.absorbing before) r := by
  obtain ⟨hdec, hopen⟩ := settled?_eq_none.1 (h.unsettled hcut)
  have hlimit : (c.absorbing before).limit = limit := by rw [absorbing_eq, ← hc.limit_eq]
  rw [hlimit] at hdec
  refine ⟨hdec, hopen, fun r' hr' => Bool.eq_false_iff.2 ?_, ?_⟩
  · have hnone : (earlier ++ before).reduceOption.any Reading.ends = false := by
      rw [List.reduceOption_append, List.any_append, ← hc.ended_eq, ← hopen, absorbing_eq]
    exact List.any_eq_false.1 hnone r' (List.reduceOption_mem_iff.2 hr')
  · have hshort := length_of_decode_eq_none hdec
    rw [Frame.headerSize] at hshort
    cases r with
    | none =>
      rw [absorbing_none, absorbing_nil]
      omega
    | some r =>
      have hchunk : r.octets.length ≤ 8192 :=
        hchunks r (hcut ▸ List.mem_append_right _ List.mem_cons_self)
      rw [absorbing_some, absorbing_nil, absorb_snd, List.length_append]
      omega

/-- What a channel keeps between two calls, it keeps over a call. -/
theorem Keeps.draws {limit : Nat} {earlier rs : List (Option Reading)}
    {answer : Reception (Frame × Option Descriptor)} (hc : Keeps limit earlier c)
    (h : Draws c rs answer c') (hchunks : ∀ r, some r ∈ rs → r.octets.length ≤ chunkSize) :
    Keeps limit (earlier ++ rs) c' := by
  have hheld : (c.absorbing rs).buffer.length ≤ limit + 8197 := by
    rcases List.eq_nil_or_concat rs with rfl | ⟨before, r, rfl⟩
    · exact hc.bounded
    · rw [List.concat_eq_append] at h hchunks ⊢
      rw [absorbing_append]
      exact (hc.needed h hchunks rfl).bounded
  refine ⟨h.limit_eq.trans hc.limit_eq, ?_, ?_⟩
  · rw [h.ended_eq, hc.ended_eq, List.reduceOption_append, List.any_append]
  · cases h.concludes with
    | settled hsettled => exact Nat.le_trans (length_buffer_settled hsettled).1 hheld
    | waiting | unread => exact hheld

/-- A fresh channel has read nothing. -/
theorem keeps_fresh (limit : Nat) (reports : Bool) :
    Keeps limit [] { limit, interruptible := reports } :=
  ⟨rfl, rfl, Nat.zero_le _⟩

/-- A transport that reads in chunks brings no reading that is longer. -/
theorem length_le_of_reads (hT : T.Chunked) {rs : List (Option Reading)}
    (h : ∀ r, some r ∈ rs → ∃ t t', T.read t chunkSize = (some r, t')) :
    ∀ r, some r ∈ rs → r.octets.length ≤ chunkSize := by
  intro r hr
  obtain ⟨t, t', hread⟩ := h r hr
  exact hT t chunkSize r t' hread

/-- A run of calls keeps what a call keeps. -/
theorem Keeps.callEach (hT : T.Chunked) {limit : Nat} (asks : List Ask) {t : Noted τ}
    (hc : Keeps limit t.answers c) :
    Keeps limit (callEach T.noted asks c t).2.2.answers (callEach T.noted asks c t).2.1 := by
  induction asks generalizing c t with
  | nil => exact hc
  | cons ask asks ih =>
    obtain ⟨rs, hrs, hreads, hdraws⟩ := call_draws T ask c t
    have hnext : Keeps limit (call T.noted ask c t).2.2.answers
        (call T.noted ask c t).2.1 := by
      rw [hrs]
      exact hc.draws hdraws (length_le_of_reads hT hreads)
    exact ih hnext

/-- **What is buffered is bounded, and no read is made that is not needed.** Let a channel be given
any limit, and then make any calls on a transport whose reads may bring anything, in chunks. Of the
call behind them, which has read `rs`: between two calls and behind each read the buffer holds no
more than the limit and 8197 octets, a header and a chunk but one octet; and a read is made only
while the stream has not ended, no read before, in whatever call, has found its end or that the
peer is gone, and what is buffered is neither a frame nor refused. That the reads are kept changes
nothing else. -/
theorem reads_on_demand (T : Transport τ) (hT : T.Chunked) (limit : Nat) (reports : Bool) (t : τ)
    (asks : List Ask) (ask : Ask) :
    let fresh : Channel := { limit, interruptible := reports }
    let earlier := callEach T.noted asks fresh ⟨t, []⟩
    let out := call T.noted ask earlier.2.1 earlier.2.2
    callEach T (asks ++ [ask]) fresh t = (earlier.1 ++ [out.1], out.2.1, out.2.2.base) ∧
      out.2.1.buffer.length ≤ limit + 8197 ∧
      ∃ rs answer, out.2.2.answers = earlier.2.2.answers ++ rs ∧ out.1 = ask.accept answer ∧
        Draws earlier.2.1 rs answer out.2.1 ∧
        ∀ before r after, rs = before ++ r :: after →
          Needed limit (earlier.2.2.answers ++ before) (earlier.2.1.absorbing before) r := by
  intro fresh earlier out
  have hc : Keeps limit earlier.2.2.answers earlier.2.1 :=
    Keeps.callEach hT asks (keeps_fresh limit reports)
  obtain ⟨rs, hrs, hreads, hdraws⟩ := call_draws T ask earlier.2.1 earlier.2.2
  have hchunks := length_le_of_reads hT hreads
  have hanswer : out.1 = ask.accept (nextFrame T.noted earlier.2.1 earlier.2.2).1 :=
    congrArg Prod.fst (call_eq T.noted ask earlier.2.1 earlier.2.2)
  refine ⟨?_, (hc.draws hdraws hchunks).bounded, rs, _, hrs, hanswer, hdraws,
    fun before r after hcut => hc.needed hdraws hchunks hcut⟩
  rw [callEach_noted T (asks ++ [ask]) fresh ⟨t, []⟩, callEach_append]
  rfl

/-- A scalar with the header of another one behind it, the second cut short by the end of the
stream: the first call reads twice, the second once and finds the end, and the third does not read
any more. -/
theorem reads_on_demand_cut_short :
    let T := Scripted.transport .full
    let t : Scripted := { reads := [.data [2, 0, 0, 0] [], .data [0, 1, 7, 2, 0] [], .data [] []] }
    let earlier := callEach T.noted [.scalar, .scalar] { limit := 1 } ⟨t, []⟩
    let out := call T.noted .message earlier.2.1 earlier.2.2
    T.Chunked ∧
      earlier.1 = [.item (.scalar [7]), .failed (.violation (.cutShort 2))] ∧
      earlier.2.2.answers = [some (.data [2, 0, 0, 0]), some (.data [0, 1, 7, 2, 0]), some .atEnd] ∧
      out.1 = .failed (.violation (.cutShort 2)) ∧ out.2.2.answers = earlier.2.2.answers ∧
      out.2.1.buffer.length ≤ 1 + 8197 := by
  intro T t earlier out
  have hT : T.Chunked := Scripted.transport_chunked .full
  obtain ⟨-, hbounded, rs, answer, hrs, -, -, hneeded⟩ :=
    reads_on_demand T hT 1 false t [.scalar, .scalar] .message
  have hanswers : earlier.2.2.answers =
      [some (.data [2, 0, 0, 0]), some (.data [0, 1, 7, 2, 0]), some .atEnd] := rfl
  refine ⟨hT, by decide, hanswers, by decide, ?_, hbounded⟩
  -- another read would come behind one that has found the end
  have hended : some Reading.atEnd ∈ earlier.2.2.answers := by
    rw [hanswers]
    simp only [List.mem_cons, true_or, or_true]
  cases rs with
  | nil => rw [hrs, List.append_nil]
  | cons r rs =>
    have hopen := (hneeded [] r rs rfl).not_ended .atEnd (List.mem_append_left _ hended)
    cases hopen

end Channel

end Overseer
