import Overseer.Proofs.Channel.Stream
import Overseer.Proofs.Process.Tidy

/-!
# What is queued, as a stream

Segments in a row make a stream (`Segment.flow`). A read of a pipe takes a front part off it
(`Pipe.Takes`): how the stream is split into segments decides how long that part is and nothing
else, as long as no segment is empty or carries more descriptors than a read has room for
(`Segment.Plain`).
-/

namespace Overseer

namespace Segment

/-- What was written at once, as a stream: the descriptor goes with the first octet. -/
def stream (s : Segment) : Stream := .tagged s.octets s.descriptors.head?

/-- What was written one after the other. -/
def flow (segments : List Segment) : Stream := segments.flatMap stream

@[simp] theorem flow_nil : flow [] = [] := rfl

@[simp] theorem flow_cons (s : Segment) (segments : List Segment) :
    flow (s :: segments) = s.stream ++ flow segments := rfl

@[simp] theorem flow_append (segments more : List Segment) :
    flow (segments ++ more) = flow segments ++ flow more :=
  List.flatMap_append

theorem octets_stream (s : Segment) : s.stream.octets = s.octets := Stream.octets_tagged ..

/-- A stream is as long as its segments are. -/
theorem length_flow (segments : List Segment) :
    (flow segments).length = total (fun s => s.octets.length) segments := by
  induction segments with
  | nil => rfl
  | cons s segments ih =>
    rw [flow_cons, List.length_append, ih, ← Stream.length_octets, octets_stream, total_cons]

/-- Something was written, with one descriptor at most. -/
structure Plain (s : Segment) : Prop where
  nonempty : s.octets ≠ []
  single : s.descriptors.length ≤ 1

instance (s : Segment) : Decidable s.Plain :=
  decidable_of_iff (s.octets ≠ [] ∧ s.descriptors.length ≤ 1)
    ⟨fun h => ⟨h.1, h.2⟩, fun h => ⟨h.nonempty, h.single⟩⟩

/-- What is left of a segment of which a part was read. -/
def remnant (s : Segment) (n : Nat) : Segment :=
  { s with octets := s.octets.drop n, descriptors := [] }

variable {s : Segment} {n : Nat}

theorem toList_head? (h : s.Plain) : s.descriptors.head?.toList = s.descriptors := by
  have hsingle := h.single
  cases hd : s.descriptors with
  | nil => rfl
  | cons d ds =>
    rw [hd, List.length_cons] at hsingle
    rw [List.length_eq_zero_iff.1 (Nat.le_zero.1 (Nat.le_of_succ_le_succ hsingle))]
    rfl

/-- Its descriptors are those of its stream. -/
theorem descriptors_stream (h : s.Plain) : s.stream.descriptors = s.descriptors := by
  rw [stream, Stream.descriptors_tagged h.nonempty, toList_head? h]

/-- What is left is plain. -/
theorem plain_remnant (h : s.octets.drop n ≠ []) : (s.remnant n).Plain := ⟨h, Nat.zero_le _⟩

/-- A segment of which a part was read is that part and what is left. -/
theorem tagged_take (s : Segment) (hn : n ≠ 0) :
    Stream.tagged (s.octets.take n) s.descriptors.head? ++ (s.remnant n).stream = s.stream :=
  Stream.tagged_cut _ _ hn

end Segment

namespace Pipe

variable {n : Nat} {credentials : Option Bool} {queue : List Segment}

/-- What is gathered is the front part of what is queued. -/
theorem gather_flow (h : ∀ s ∈ queue, s.Plain) :
    ∃ front : Stream, front.octets = (gather false n credentials queue).1 ∧
      front.descriptors = (gather false n credentials queue).2.1 ∧
      front.descriptors.length ≤ 1 ∧
      front ++ Segment.flow (gather false n credentials queue).2.2 = Segment.flow queue ∧
      ∀ s ∈ (gather false n credentials queue).2.2, s.Plain := by
  induction queue generalizing n credentials with
  | nil => exact ⟨[], rfl, rfl, Nat.zero_le _, rfl, h⟩
  | cons s queue ih =>
    have hs := h s List.mem_cons_self
    have hrest : ∀ s ∈ queue, s.Plain := fun s hmem => h s (List.mem_cons_of_mem _ hmem)
    simp only [gather, Bool.false_eq_true, false_and, or_false]
    split
    · exact ⟨[], rfl, rfl, Nat.zero_le _, rfl, h⟩
    · next hn =>
      split
      · next hleft =>
        -- a part of the first segment
        have hne : s.octets.drop n ≠ [] := by simpa using hleft
        have htake : s.octets.take n ≠ [] := by
          rw [Ne, List.take_eq_nil_iff]
          exact not_or.2 ⟨hn, hs.nonempty⟩
        have hds := Stream.descriptors_tagged htake s.descriptors.head?
        rw [Segment.toList_head? hs] at hds
        refine ⟨_, Stream.octets_tagged .., hds, ?_, ?_, fun s' hmem => ?_⟩
        · rw [hds]
          exact hs.single
        · show _ ++ Segment.flow (s.remnant n :: queue) = _
          rw [Segment.flow_cons, ← List.append_assoc, Segment.tagged_take s hn, Segment.flow_cons]
        · rcases List.mem_cons.1 hmem with rfl | hmem
          · exact Segment.plain_remnant hne
          · exact hrest s' hmem
      · split
        · exact ⟨s.stream, s.octets_stream, Segment.descriptors_stream hs,
            (Segment.descriptors_stream hs).symm ▸ hs.single, rfl, hrest⟩
        · next hnone =>
          -- the whole first segment, and more
          obtain ⟨front, hoctets, hds, hsingle, hflow, hplain⟩ :=
            @ih (n - s.octets.length) (some s.credentials) hrest
          have hempty : s.stream.descriptors = [] := by
            rw [Segment.descriptors_stream hs]
            simpa using hnone
          refine ⟨s.stream ++ front, ?_, ?_, ?_, ?_, hplain⟩
          · rw [Stream.octets_append, s.octets_stream, hoctets]
          · rw [Stream.descriptors_append, hempty, hds]
            rfl
          · rw [Stream.descriptors_append, hempty]
            exact hsingle
          · rw [List.append_assoc, hflow, Segment.flow_cons]

/-- What a read takes off a queue. -/
inductive Takes (p : Pipe) : Option Reading × Pipe → Prop
  /-- A front part. -/
  | front {front : Stream} {queue : List Segment} (hne : front ≠ [])
      (hflow : Segment.flow p.queue = front ++ Segment.flow queue) (hplain : ∀ s ∈ queue, s.Plain) :
      Takes p (some (.data front.octets front.descriptors), { p with queue })
  /-- There is nothing. -/
  | nothing (hempty : p.queue = []) : Takes p (none, p)

/-- What is queued, a read takes the front part of. -/
theorem takes_queued {p : Pipe} (h : ∀ s ∈ p.queue, s.Plain) (hqueued : p.queue ≠ [])
    (hn : n ≠ 0) : Takes p (p.read false n) := by
  unfold Pipe.read
  split
  · next hempty => exact absurd hempty hqueued
  · next s queue hqueue =>
    rw [hqueue] at h
    have hne : (gather false n none (s :: queue)).1 ≠ [] :=
      gather_ne_nil hn (h s List.mem_cons_self).nonempty
    obtain ⟨front, hoctets, hds, hsingle, hflow, hplain⟩ := @gather_flow n none _ h
    generalize gather false n none (s :: queue) = out at hne hoctets hds hflow hplain ⊢
    obtain ⟨xs, ds, rest⟩ := out
    subst hoctets hds
    have hroom : received false front.octets front.descriptors =
        .data front.octets front.descriptors :=
      if_pos (Nat.le_trans hsingle (by decide))
    simp only [hroom]
    refine .front ?_ ?_ hplain
    · rintro rfl
      exact hne rfl
    · rw [hqueue]
      exact hflow.symm

/-- **A read takes the front part off a stream**, or finds nothing. -/
theorem takes_read {p : Pipe} (h : ∀ s ∈ p.queue, s.Plain) (hshut : p.shut = false)
    (hreset : p.reset = false) (hn : n ≠ 0) : Takes p (p.read false n) := by
  by_cases hempty : p.queue = []
  · unfold Pipe.read
    rw [hempty, hreset, hshut]
    exact .nothing hempty
  · exact takes_queued h hempty hn

end Pipe

end Overseer
