import Overseer.Proofs.Channel.Receiving
import Overseer.Proofs.Channel.Stream
import Overseer.Proofs.Frame.RoundTrip

/-!
# Sending, without a bound on the writes

`Channel.writeFrame` counts its writes so that it ends by recursion. `Channel.Writes` says what it
does without the count, with one case for each way in which a write can end; on a lawful transport
the two are the same (`writes_iff`).

`Channel.put` sends an item by the call that is meant for it. The frame of an item is the same at
every limit that admits it: `Item.octets` are its octets, `Item.frame` is what a reader makes of
them, and `Item.stream` is what becomes of it in flight.
-/

namespace Overseer

namespace Channel

variable {τ : Type} {T : Transport τ}

/-- What the writing of octets to their end comes to. -/
inductive Writes (T : Transport τ) :
    Octets → Option Descriptor → τ → Except ChannelError Unit × τ → Prop
  /-- Nothing is left. -/
  | done {d : Option Descriptor} {t : τ} : Writes T [] d t (.ok (), t)
  /-- The transport takes nothing. -/
  | refused {xs : Octets} {d : Option Descriptor} {t t' : τ} (hne : xs ≠ [])
      (hwrite : T.write t xs d = (.ok 0, t')) : Writes T xs d t (.error .closed, t')
  /-- The transport takes a front part, and the descriptor with it. -/
  | accepted {xs : Octets} {d : Option Descriptor} {t t' : τ} {n : Nat}
      {out : Except ChannelError Unit × τ} (hne : xs ≠ []) (hn : n ≠ 0)
      (hwrite : T.write t xs d = (.ok n, t')) (hrest : Writes T (xs.drop n) none t' out) :
      Writes T xs d t out
  /-- The write is interrupted, and tried again as it was. -/
  | interrupted {xs : Octets} {d : Option Descriptor} {t t' : τ} {e : IoError}
      {out : Except ChannelError Unit × τ} (hne : xs ≠ []) (he : e.kind = .interrupted)
      (hwrite : T.write t xs d = (.error e, t')) (hrest : Writes T xs d t' out) :
      Writes T xs d t out
  /-- The write fails. -/
  | failed {xs : Octets} {d : Option Descriptor} {t t' : τ} {e : IoError} (hne : xs ≠ [])
      (he : e.kind ≠ .interrupted) (hwrite : T.write t xs d = (.error e, t')) :
      Writes T xs d t (.error (.ofWrite e), t')

variable {xs : Octets} {d : Option Descriptor} {t : τ}

/-- Writing comes to one thing only. -/
theorem Writes.unique {out out' : Except ChannelError Unit × τ} (h : Writes T xs d t out)
    (h' : Writes T xs d t out') : out = out' := by
  induction h with
  | done =>
    cases h' with
    | done => rfl
    | refused hne | accepted hne | interrupted hne | failed hne => exact absurd rfl hne
  | refused hne hwrite =>
    cases h' with
    | done => exact absurd rfl hne
    | refused _ hwrite₁ => rw [hwrite] at hwrite₁; cases hwrite₁; rfl
    | accepted _ hn hwrite₁ => rw [hwrite] at hwrite₁; cases hwrite₁; exact absurd rfl hn
    | interrupted _ _ hwrite₁ | failed _ _ hwrite₁ => rw [hwrite] at hwrite₁; cases hwrite₁
  | accepted hne hn hwrite _ ih =>
    cases h' with
    | done => exact absurd rfl hne
    | refused _ hwrite₁ => rw [hwrite] at hwrite₁; cases hwrite₁; exact absurd rfl hn
    | accepted _ _ hwrite₁ hrest₁ =>
      rw [hwrite] at hwrite₁; cases hwrite₁
      exact ih hrest₁
    | interrupted _ _ hwrite₁ | failed _ _ hwrite₁ => rw [hwrite] at hwrite₁; cases hwrite₁
  | interrupted hne he hwrite _ ih =>
    cases h' with
    | done => exact absurd rfl hne
    | refused _ hwrite₁ | accepted _ _ hwrite₁ => rw [hwrite] at hwrite₁; cases hwrite₁
    | interrupted _ _ hwrite₁ hrest₁ =>
      rw [hwrite] at hwrite₁; cases hwrite₁
      exact ih hrest₁
    | failed _ he₁ hwrite₁ => rw [hwrite] at hwrite₁; cases hwrite₁; exact absurd he he₁
  | failed hne he hwrite =>
    cases h' with
    | done => exact absurd rfl hne
    | refused _ hwrite₁ | accepted _ _ hwrite₁ => rw [hwrite] at hwrite₁; cases hwrite₁
    | interrupted _ he₁ hwrite₁ => rw [hwrite] at hwrite₁; cases hwrite₁; exact absurd he₁ he
    | failed _ _ hwrite₁ => rw [hwrite] at hwrite₁; cases hwrite₁; rfl

/-- The count of writes suffices if it exceeds what is left and the interruptions to come. -/
theorem writeWithin_writes (hT : T.Lawful) {writes : Nat}
    (h : xs.length + T.stalls t + 1 ≤ writes) : Writes T xs d t (writeWithin T writes xs d t) := by
  induction writes generalizing xs d t with
  | zero => omega
  | succ writes ih =>
    rw [writeWithin]
    split
    · next hempty =>
      rw [List.isEmpty_iff.1 hempty]
      exact .done
    · next hempty =>
      have hne : xs ≠ [] := fun hnil => hempty (List.isEmpty_iff.2 hnil)
      split
      · next hwrite => exact .refused hne hwrite
      · next n t' hn hwrite =>
        have hn' : n ≠ 0 := fun hzero => hn (by rw [hzero])
        have hstalls := hT.stalls_write _ _ _ _ _ hwrite
        have hle := hT.write_le _ _ _ _ _ hwrite
        refine .accepted hne hn' hwrite (ih ?_)
        rw [List.length_drop]
        omega
      · next e t' hwrite =>
        split
        · next he =>
          have hstalls := hT.stalls_interrupted _ _ _ _ _ hwrite he
          exact .interrupted hne he hwrite (ih (by omega))
        · next he => exact .failed hne he hwrite

/-- **On a lawful transport the count of writes plays no part.** -/
theorem writes_iff (hT : T.Lawful) {out : Except ChannelError Unit × τ} :
    Writes T xs d t out ↔ writeFrame T xs d t = out := by
  have hrun : Writes T xs d t (writeFrame T xs d t) := writeWithin_writes hT (Nat.le_refl _)
  constructor
  · intro h
    exact hrun.unique h
  · rintro rfl
    exact hrun

end Channel

/-! ## Items -/

namespace Item

/-- The descriptor that travels with an item. -/
def descriptor : Item → Option Descriptor
  | envelope e => e.descriptor
  | scalar _ => none

/-- The frame that an item is sent as, if a limit admits it. -/
def encode (limit : Nat) : Item → Except ChannelError Octets
  | envelope ⟨m, d⟩ => Frame.encodeMessage m d.isSome limit
  | scalar data => Frame.encodeScalar data limit

/-- The length of the body of an item's frame. -/
def size : Item → Nat
  | envelope ⟨m, _⟩ => Frame.bodySize m
  | scalar data => data.length

/-- What a reader makes of an item's frame. -/
def frame : Item → Frame
  | envelope ⟨m, d⟩ => .message m d.isSome
  | scalar data => .scalar data false

/-- The octets of an item's frame. -/
def octets : Item → Octets
  | envelope ⟨m, d⟩ =>
    Frame.header Frame.messageKind d.isSome (Frame.bodySize m) ++ Frame.body m
  | scalar data => Frame.header Frame.scalarKind false data.length ++ data

/-- What becomes of an item in flight. -/
def stream (item : Item) : Stream := Stream.tagged item.octets item.descriptor

/-- A limit decides whether there is a frame, and not what it is. -/
theorem octets_of_encode {limit : Nat} {item : Item} {xs : Octets}
    (h : item.encode limit = .ok xs) : item.octets = xs := by
  cases item with
  | envelope e => exact (Frame.encodeMessage_eq_ok.1 h).2
  | scalar data => exact (Frame.encodeScalar_eq_ok.1 h).2

/-- An item's frame begins with a header. -/
theorem octets_ne_nil (item : Item) : item.octets ≠ [] := by
  cases item <;> exact List.cons_ne_nil _ _

/-- A reader who admits the frame of an item takes it off the buffer. -/
theorem decode_octets {limit receiver : Nat} {item : Item} {xs : Octets}
    (h : item.encode limit = .ok xs) (hr : item.size ≤ receiver) (rest : Octets) :
    Frame.decode receiver (item.octets ++ rest) = .ok (some (item.frame, rest)) := by
  rw [octets_of_encode h]
  cases item with
  | envelope e => exact Frame.decode_message h hr rest
  | scalar data => exact Frame.decode_scalar h hr rest

/-- The frame of an item is flagged if a descriptor travels with it. -/
theorem flagged_frame (item : Item) : item.frame.flagged = item.descriptor.isSome := by
  cases item <;> rfl

/-- The call that is meant for an item hands it over. -/
theorem accept_frame (item : Item) :
    item.ask.accept (.item (item.frame, item.descriptor)) = .item item := by
  cases item <;> rfl

end Item

namespace Channel

variable {τ : Type}

/-- Sends an item by the call that is meant for it. -/
def put (T : Transport τ) (c : Channel) (item : Item) (t : τ) : Except ChannelError Unit × τ :=
  match item with
  | .envelope ⟨m, none⟩ => send T c m t
  | .envelope ⟨m, some d⟩ => sendWith T c m d t
  | .scalar data => sendScalar T c data t

/-- An item that has a frame is sent by writing the frame, with the descriptor if there is one. -/
theorem put_of_encode {T : Transport τ} (hT : T.carriesDescriptors = true) {c : Channel}
    {item : Item} {xs : Octets} (h : item.encode c.limit = .ok xs) (t : τ) :
    put T c item t = writeFrame T xs item.descriptor t := by
  cases item with
  | envelope e =>
    obtain ⟨m, d⟩ := e
    rw [Item.encode] at h
    cases d with
    | none =>
      rw [Option.isSome_none] at h
      simp only [put, send, h]
      rfl
    | some d =>
      rw [Option.isSome_some] at h
      simp only [put, sendWith, hT, if_true, h]
      rfl
  | scalar data =>
    rw [Item.encode] at h
    simp only [put, sendScalar, h]
    rfl

end Channel

end Overseer
