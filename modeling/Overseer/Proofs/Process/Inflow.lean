import Overseer.Proofs.Channel.Receiving
import Overseer.Proofs.Process.Course

/-!
# What is received has flowed in

The octets that a process reads come out of what can flow in, none of them twice
(`Process.inflow_read`). So a call for the next frame does not add to what can still be received,
and it takes something away if it brings a frame or is interrupted (`Channel.Fetches.pending`).
-/

namespace Overseer

/-- The octets that a read brings. -/
def Reading.octets (r : Reading) : Octets :=
  match r.result with
  | .ok xs => xs
  | .error _ => []

/-- What a reader gets is what was gathered, or nothing of it. -/
theorem Pipe.length_received_le (w : Bool) (xs : Octets) (ds : List Descriptor) :
    (received w xs ds).octets.length ≤ xs.length := by
  unfold received
  simp only
  generalize (if w = true then 0 else maxReceived) = room
  split
  · exact Nat.le_refl _
  · exact Nat.zero_le _

/-- What is read was queued. -/
theorem Pipe.size_read_add {w : Bool} {n : Nat} {p p' : Pipe} {r : Reading}
    (h : read w n p = (some r, p')) : r.octets.length + p'.size ≤ p.size := by
  unfold read at h
  split at h
  · next hqueue =>
    split at h
    · cases h
      exact Nat.le_of_eq (Nat.zero_add _)
    · split at h <;> cases h
      exact Nat.le_of_eq (Nat.zero_add _)
  · next segment queue hqueue =>
    have hsize := length_gather w n none (segment :: queue)
    generalize gather w n none (segment :: queue) = out at h hsize
    obtain ⟨xs, ds, rest⟩ := out
    cases h
    have hle := length_received_le w xs ds
    simp only at hsize
    rw [size, size, hqueue]
    show _ + total (fun s => s.octets.length) rest ≤ _
    omega

namespace Process

variable {p p' : Process} {n : Nat} {r : Reading}

theorem inflow_readNow_add (h : p.readNow n = some (r, p')) :
    r.octets.length + p'.inflow ≤ p.inflow := by
  unfold readNow at h
  split at h
  · next r inbox hread =>
    cases h
    have hsize := Pipe.size_read_add hread
    show r.octets.length + (inbox.size + total weight p.coming) ≤
      p.inbox.size + total weight p.coming
    omega
  · cases h

theorem inflow_readAgain_add {ran : Bool} (h : readAgain n ran p = some (r, p')) :
    r.octets.length + p'.inflow ≤ p.inflow := by
  unfold readAgain at h
  split at h
  · cases h
    exact Nat.le_of_eq (Nat.zero_add _)
  · exact inflow_readNow_add h

theorem inflow_await_add {coming : List Stimulus}
    (h : await (readAgain n) coming p = (some r, p')) :
    r.octets.length + p'.inflow ≤ p.inbox.size + total weight coming := by
  induction coming generalizing p with
  | nil => cases h
  | cons stimulus coming ih =>
    have hsize := (meet_keeps p stimulus).1
    rw [total_cons]
    unfold await at h
    simp only at h
    split at h
    · cases h
    · have hrest := ih h
      simp only at hrest
      omega
    · split at h
      · next hsome =>
        cases h
        have hread := inflow_readAgain_add hsome
        simp only [inflow] at hread ⊢
        omega
      · have hrest := ih h
        simp only at hrest
        omega

theorem inflow_readOn_add (h : p.readOn n = (some r, p')) :
    r.octets.length + p'.inflow ≤ p.inflow := by
  unfold readOn at h
  split at h
  · cases h
  · exact inflow_await_add h
  · split at h
    · next hnow =>
      cases h
      exact inflow_readNow_add hnow
    · exact inflow_await_add h

/-- **What is read has flowed in.** -/
theorem inflow_read_add (h : p.read n = (some r, p')) :
    r.octets.length + p'.inflow ≤ p.inflow := by
  rw [read_eq] at h
  rw [← inflow_preempt p]
  exact inflow_readOn_add h

end Process

namespace Channel

variable {c c' : Channel}

/-- A frame that is taken makes the buffer shorter, and nothing makes it longer. -/
theorem length_buffer_settled {answer : Reception (Frame × Option Descriptor)}
    (h : c.settled? = some (answer, c')) :
    c'.buffer.length ≤ c.buffer.length ∧
      ∀ value, answer = .item value → c'.buffer.length < c.buffer.length := by
  have hshort : ∀ {frame : Frame} {rest : Octets},
      Frame.decode c.limit c.buffer = .ok (some (frame, rest)) → rest.length < c.buffer.length := by
    intro frame rest hdec
    obtain ⟨front, hfront, hlen⟩ := Frame.decode_consumes hdec
    rw [hfront, List.length_append]
    rw [Frame.headerSize] at hlen
    omega
  cases settles_iff.1 h with
  | refused | atEnd | cutShort => exact ⟨Nat.le_refl _, fun _ h => by cases h⟩
  | plain hdec | flagged hdec | missing hdec =>
    exact ⟨Nat.le_of_lt (hshort hdec), fun _ _ => hshort hdec⟩

/-- What the buffer answers is no interruption. -/
theorem ne_interrupted_of_settled {answer : Reception (Frame × Option Descriptor)}
    (h : c.settled? = some (answer, c')) : answer ≠ .failed .interrupted := by
  rintro rfl
  have hcompleted := completed_of_settled h
  cases hcompleted

/-- What absorbing a reading leaves in the buffer. -/
theorem length_buffer_absorb {r : Reading} {failure : Option ChannelError}
    (h : c.absorb r = (failure, c')) :
    c'.buffer.length ≤ c.buffer.length + r.octets.length ∧
      (failure = some .interrupted → r.continues = true) := by
  cases failure with
  | some e =>
    obtain ⟨rfl, cause, hr, hcause⟩ := absorb_eq_some h
    refine ⟨Nat.le_add_right .., fun he => ?_⟩
    cases he
    rcases hcause with ⟨hkind, -, -⟩ | ⟨-, -, he⟩
    · simp [Reading.continues, hr, hkind]
    · cases he
  | none =>
    refine ⟨?_, by intro hfailure; cases hfailure⟩
    rcases absorb_eq_none h with ⟨xs, hr, -, rfl⟩ | ⟨-, rfl⟩ | ⟨-, -, rfl⟩
    · have hoctets : r.octets = xs := by simp [Reading.octets, hr]
      rw [hoctets]
      exact Nat.le_of_eq List.length_append
    · exact Nat.le_add_right ..
    · exact Nat.le_add_right ..

/-- **Receiving adds nothing to what can be received**, and takes something away if it brings a
frame or is interrupted. -/
theorem Fetches.pending {p : Process}
    {out : Reception (Frame × Option Descriptor) × Channel × Process}
    (h : Fetches Process.transport c p out) :
    out.2.1.buffer.length + out.2.2.inflow ≤ c.buffer.length + p.inflow ∧
      ((∃ value, out.1 = .item value) ∨ out.1 = .failed .interrupted →
        out.2.1.buffer.length + out.2.2.inflow < c.buffer.length + p.inflow) := by
  induction h with
  | settled h =>
    obtain ⟨hle, hlt⟩ := length_buffer_settled h
    refine ⟨Nat.add_le_add_right hle _, ?_⟩
    rintro (⟨value, hitem⟩ | hinterrupted)
    · exact Nat.add_lt_add_right (hlt value hitem) _
    · exact absurd hinterrupted (ne_interrupted_of_settled h)
  | @dry c p p' h hread =>
    refine ⟨Nat.add_le_add_left ?_ _, ?_⟩
    · obtain ⟨notes, hcourse⟩ := Process.Course.ofRead p chunkSize
      rw [show p.read chunkSize = (none, p') from hread] at hcourse
      exact hcourse.inflow_le
    · rintro (⟨value, hitem⟩ | hinterrupted)
      · cases hitem
      · cases hinterrupted
  | @broken c c' p p' r e h hread habsorb =>
    have hadd := Process.inflow_read_add hread
    obtain ⟨hle, hcontinues⟩ := length_buffer_absorb habsorb
    have hsame : c'.buffer = c.buffer := by rw [(absorb_eq_some habsorb).1]
    simp only [hsame]
    refine ⟨by omega, ?_⟩
    rintro (⟨value, hitem⟩ | hinterrupted)
    · cases hitem
    · cases hinterrupted
      have hlt := Process.transport_lawful.inflow_read _ _ _ _ hread (hcontinues rfl)
      exact Nat.add_lt_add_left hlt _
  | onward h hread habsorb _ ih =>
    have hadd := Process.inflow_read_add hread
    have hle := (length_buffer_absorb habsorb).1
    refine ⟨by omega, fun hout => ?_⟩
    have hlt := ih.2 hout
    omega

end Channel

end Overseer
