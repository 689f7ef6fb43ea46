import Overseer.Proofs.Channel.Sending

/-!
# What a transport takes of what is sent

A call that sends an item may fail when the transport has taken a part of the frame. `Tapped` keeps
what is taken, and changes nothing else (`put_tapped`). An `Attempt` is an item that was sent, with
what came of it: the octets that were taken are a front part of the item's frame, and they are all
of it exactly if the call succeeded (`put_attempt`). A caller may go on after a failure; `attempts`
is what comes of all its calls.
-/

namespace Overseer

/-- A state of a transport, with the octets that it has taken. -/
structure Tapped (τ : Type) where
  base : τ
  taken : Octets := []

/-- A transport that keeps what it takes. -/
def Transport.tapped {τ : Type} (T : Transport τ) : Transport (Tapped τ) where
  carriesDescriptors := T.carriesDescriptors
  write t xs d :=
    match T.write t.base xs d with
    | (.ok n, base) => (.ok n, ⟨base, t.taken ++ xs.take n⟩)
    | (.error e, base) => (.error e, ⟨base, t.taken⟩)
  read t n := ((T.read t.base n).1, ⟨(T.read t.base n).2, t.taken⟩)
  inflow t := T.inflow t.base
  stalls t := T.stalls t.base

/-- What came of an item that was sent. -/
structure Attempt where
  item : Item
  result : Except ChannelError Unit
  /-- What the transport has taken of the item's frame. -/
  taken : Octets

namespace Attempt

/-- The call succeeded. -/
def succeeded (a : Attempt) : Bool :=
  match a.result with
  | .ok () => true
  | .error _ => false

theorem succeeded_iff_ok {a : Attempt} : a.succeeded = true ↔ a.result = .ok () := by
  unfold succeeded
  cases a.result with
  | ok => exact iff_of_true rfl rfl
  | error => exact iff_of_false nofun nofun

/-- A part of the frame was taken, and not all of it. -/
def CutOff (a : Attempt) : Prop := a.taken ≠ [] ∧ a.taken ≠ a.item.octets

/-- What is true of every attempt under a limit. -/
structure Sound (limit : Nat) (a : Attempt) : Prop where
  taken_isPrefix : a.taken <+: a.item.octets
  succeeded_iff : a.succeeded = true ↔ a.taken = a.item.octets
  /-- Nothing is taken of an item that has no frame. -/
  encodes : a.taken ≠ [] → ∃ xs, a.item.encode limit = .ok xs

end Attempt

namespace Transport

variable {τ : Type} {T : Transport τ} {t t' : Tapped τ} {xs : Octets} {d : Option Descriptor}

theorem tapped_write_ok {n : Nat} (h : T.tapped.write t xs d = (.ok n, t')) :
    T.write t.base xs d = (.ok n, t'.base) ∧ t'.taken = t.taken ++ xs.take n := by
  unfold tapped at h
  simp only at h
  split at h <;> cases h
  next hwrite => exact ⟨hwrite, rfl⟩

theorem tapped_write_error {e : IoError} (h : T.tapped.write t xs d = (.error e, t')) :
    T.write t.base xs d = (.error e, t'.base) ∧ t'.taken = t.taken := by
  unfold tapped at h
  simp only at h
  split at h <;> cases h
  next hwrite => exact ⟨hwrite, rfl⟩

/-- A transport that keeps what it takes promises what it did before. -/
theorem tapped_lawful (hT : T.Lawful) : T.tapped.Lawful where
  inflow_read t n r t' h hr := by
    obtain ⟨hread, rfl⟩ := Prod.mk.injEq .. ▸ h
    exact hT.inflow_read _ n r _ (Prod.ext hread rfl) hr
  write_le t xs d n t' h := hT.write_le _ xs d n _ (tapped_write_ok h).1
  stalls_write t xs d n t' h := hT.stalls_write _ xs d n _ (tapped_write_ok h).1
  stalls_interrupted t xs d e t' h := hT.stalls_interrupted _ xs d e _ (tapped_write_error h).1

end Transport

namespace Channel

variable {τ : Type} {T : Transport τ} {t : Tapped τ} {xs : Octets} {d : Option Descriptor}
  {c : Channel} {item : Item}

/-- Keeping what is taken changes nothing else. -/
theorem Writes.untapped {out : Except ChannelError Unit × Tapped τ}
    (h : Writes T.tapped xs d t out) : Writes T xs d t.base (out.1, out.2.base) := by
  induction h with
  | done => exact .done
  | refused hne hwrite => exact .refused hne (Transport.tapped_write_ok hwrite).1
  | accepted hne hn hwrite _ ih => exact .accepted hne hn (Transport.tapped_write_ok hwrite).1 ih
  | interrupted hne he hwrite _ ih =>
    exact .interrupted hne he (Transport.tapped_write_error hwrite).1 ih
  | failed hne he hwrite => exact .failed hne he (Transport.tapped_write_error hwrite).1

/-- **What is taken is a front part**, and all of it exactly if the writing succeeds. -/
theorem Writes.taken {out : Except ChannelError Unit × Tapped τ} (h : Writes T.tapped xs d t out) :
    ∃ front back, xs = front ++ back ∧ out.2.taken = t.taken ++ front ∧
      (out.1 = .ok () ↔ back = []) := by
  induction h with
  | done => exact ⟨[], [], rfl, (List.append_nil _).symm, iff_of_true rfl rfl⟩
  | @refused xs _ _ _ hne hwrite =>
    refine ⟨[], xs, rfl, ?_, iff_of_false nofun hne⟩
    rw [(Transport.tapped_write_ok hwrite).2, List.take_zero]
  | @accepted xs _ _ _ n _ _ _ hwrite _ ih =>
    obtain ⟨front, back, hrest, htaken, hok⟩ := ih
    refine ⟨xs.take n ++ front, back, ?_, ?_, hok⟩
    · rw [List.append_assoc, ← hrest, List.take_append_drop]
    · rw [htaken, (Transport.tapped_write_ok hwrite).2, List.append_assoc]
  | interrupted _ _ hwrite _ ih =>
    obtain ⟨front, back, hrest, htaken, hok⟩ := ih
    exact ⟨front, back, hrest, by rw [htaken, (Transport.tapped_write_error hwrite).2], hok⟩
  | @failed xs _ _ _ _ hne _ hwrite =>
    refine ⟨[], xs, rfl, ?_, iff_of_false nofun hne⟩
    rw [(Transport.tapped_write_error hwrite).2, List.append_nil]

/-- An item is sent by writing its frame, or the call fails without writing anything. Which of the
two depends on the item, the channel and whether descriptors are carried. -/
theorem put_cases (carries : Bool) (c : Channel) (item : Item) :
    (∃ xs, item.encode c.limit = .ok xs ∧
      ∀ {τ : Type} (T : Transport τ), T.carriesDescriptors = carries →
        ∀ t, put T c item t = writeFrame T xs item.descriptor t) ∨
    ∃ e, ∀ {τ : Type} (T : Transport τ), T.carriesDescriptors = carries →
      ∀ t, put T c item t = (.error e, t) := by
  cases item with
  | envelope envelope =>
    obtain ⟨m, d⟩ := envelope
    cases d with
    | none =>
      cases hencode : Frame.encodeMessage m false c.limit with
      | error e => exact .inr ⟨e, fun T _ t => by simp only [put, send, hencode]⟩
      | ok xs => exact .inl ⟨xs, hencode, fun T _ t => by simp only [put, send, hencode]; rfl⟩
    | some d =>
      cases carries with
      | false =>
        refine .inr ⟨.descriptorsUnsupported, fun T hT t => ?_⟩
        simp only [put, sendWith, hT, Bool.false_eq_true, if_false]
      | true =>
        cases hencode : Frame.encodeMessage m true c.limit with
        | error e =>
          exact .inr ⟨e, fun T hT t => by simp only [put, sendWith, hT, if_true, hencode]⟩
        | ok xs =>
          refine .inl ⟨xs, hencode, fun T hT t => ?_⟩
          simp only [put, sendWith, hT, if_true, hencode]
          rfl
  | scalar data =>
    cases hencode : Frame.encodeScalar data c.limit with
    | error e => exact .inr ⟨e, fun T _ t => by simp only [put, sendScalar, hencode]⟩
    | ok xs => exact .inl ⟨xs, hencode, fun T _ t => by simp only [put, sendScalar, hencode]; rfl⟩

/-- **Keeping what is taken changes nothing else.** -/
theorem put_tapped (hT : T.Lawful) (c : Channel) (item : Item) (t : Tapped τ) :
    put T c item t.base =
      ((put T.tapped c item t).1, (put T.tapped c item t).2.base) := by
  rcases put_cases T.carriesDescriptors c item with ⟨xs, -, hput⟩ | ⟨e, hput⟩
  · rw [hput T rfl, hput T.tapped rfl]
    exact (writes_iff hT).1 ((writes_iff (Transport.tapped_lawful hT)).2 rfl).untapped
  · rw [hput T rfl, hput T.tapped rfl]

end Channel

/-! ## A caller that goes on -/

/-- Sends one item after the other, whatever comes of it. -/
def Channel.attempts {τ : Type} (T : Transport τ) (c : Channel) : List Item → τ → List Attempt
  | [], _ => []
  | item :: items, t =>
    let (result, t) := put T.tapped c item ⟨t, []⟩
    ⟨item, result, t.taken⟩ :: attempts T c items t.base

namespace Channel

variable {τ : Type} {T : Transport τ} {c : Channel}

/-- The items of some attempts are those that were sent. -/
theorem attempts_items (items : List Item) (t : τ) :
    (attempts T c items t).map Attempt.item = items := by
  induction items generalizing t with
  | nil => rfl
  | cons item items ih => exact congrArg (item :: ·) (ih _)

/-- **What comes of a call.** -/
theorem put_attempt (hT : T.Lawful) (c : Channel) (item : Item) (t : τ) :
    let out := put T.tapped c item ⟨t, []⟩
    Attempt.Sound c.limit ⟨item, out.1, out.2.taken⟩ := by
  intro out
  rcases put_cases T.carriesDescriptors c item with ⟨xs, hencode, hput⟩ | ⟨e, hput⟩
  · have hout : out = writeFrame T.tapped xs item.descriptor ⟨t, []⟩ := hput T.tapped rfl _
    have hwrites := (writes_iff (Transport.tapped_lawful hT)).2 hout.symm
    obtain ⟨front, back, hxs, htaken, hok⟩ := hwrites.taken
    rw [List.nil_append] at htaken
    have hoctets := Item.octets_of_encode hencode
    refine ⟨?_, ?_, fun _ => ⟨xs, hencode⟩⟩
    · show out.2.taken <+: item.octets
      rw [htaken, hoctets, hxs]
      exact List.prefix_append ..
    · show _ ↔ out.2.taken = item.octets
      rw [Attempt.succeeded_iff_ok, htaken, hoctets, hxs, List.self_eq_append_right]
      exact hok
  · have hout : out = (.error e, ⟨t, []⟩) := hput T.tapped rfl _
    rw [hout]
    exact ⟨List.nil_prefix, iff_of_false nofun fun h => item.octets_ne_nil h.symm,
      fun h => absurd rfl h⟩

/-- All attempts are sound. -/
theorem attempts_sound (hT : T.Lawful) (items : List Item) (t : τ) :
    ∀ a ∈ attempts T c items t, a.Sound c.limit := by
  induction items generalizing t with
  | nil => exact fun a h => absurd h List.not_mem_nil
  | cons item items ih =>
    exact List.forall_mem_cons.2 ⟨put_attempt hT c item t, ih _⟩

end Channel

end Overseer
