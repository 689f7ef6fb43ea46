import Overseer.Proofs.Channel.Carrying
import Overseer.Proofs.Process.Flow

/-!
# A process that only its peer has to do with

Where no signal arrives, and the peer writes and does nothing else, the reads of a process bring
what the peer writes and are not interrupted (`Process.carries_still`). They change nothing of the
process but its input (`Process.Follows`).
-/

namespace Overseer.Process

/-- Nothing happens to a process but that its peer writes, and what it can read is `s`. -/
structure Still (p : Process) (s : Stream) : Prop where
  running : p.status = .running
  arrivals_eq : p.arrivals = []
  peer_there : p.peerGone = false
  shut_eq : p.inbox.shut = false
  reset_eq : p.inbox.reset = false
  queued : ∀ segment ∈ p.inbox.queue, segment.Plain
  coming : ∃ segments : List Segment, p.coming = segments.map .arrive ∧
    (∀ segment ∈ segments, segment.Plain) ∧ Segment.flow (p.inbox.queue ++ segments) = s

/-- A process that has read something, and has done nothing else. -/
structure Follows (p₀ p : Process) (s : Stream) : Prop where
  still : p.Still s
  eq_of : p = { p₀ with inbox := p.inbox, coming := p.coming }

variable {p p₀ : Process} {s : Stream} {n : Nat}

theorem Still.follows (h : p.Still s) : Follows p p s := ⟨h, rfl⟩

theorem Still.preempt_eq (h : p.Still s) : p.preempt = p := by
  unfold preempt
  rw [h.arrivals_eq]

/-- What can be read can flow in. -/
theorem Still.length_le_inflow (h : p.Still s) : s.length ≤ p.inflow := by
  obtain ⟨segments, hcoming, -, rfl⟩ := h.coming
  have hweight (coming : List Segment) :
      (Segment.flow coming).length ≤ total weight (coming.map .arrive) := by
    induction coming with
    | nil => exact Nat.le_refl _
    | cons s coming ih =>
      rw [Segment.length_flow, total_cons, ← Segment.length_flow, List.map_cons, total_cons]
      exact Nat.add_le_add (Nat.le_succ _) ih
  rw [inflow, hcoming, Segment.flow_append, List.length_append, Segment.length_flow]
  exact Nat.add_le_add_left (hweight _) _

/-- A read that does not wait takes the front part of the inbox, if there is one. -/
theorem Still.readNow (h : p.Still s) (hn : n ≠ 0) :
    (p.inbox.queue = [] ∧ p.readNow n = none) ∨
      ∃ (front : Stream) (queue : List Segment), front ≠ [] ∧
        Segment.flow p.inbox.queue = front ++ Segment.flow queue ∧
        (∀ segment ∈ queue, segment.Plain) ∧
        p.readNow n = some (.data front.octets front.descriptors,
          { p with inbox := { p.inbox with queue } }) := by
  have htakes := Pipe.takes_read h.queued h.shut_eq h.reset_eq hn
  unfold Process.readNow
  generalize p.inbox.read false n = out at htakes ⊢
  cases htakes with
  | front hne hflow hplain => exact .inr ⟨_, _, hne, hflow, hplain, rfl⟩
  | nothing hempty => exact .inl ⟨hempty, rfl⟩

/-- What the peer writes is queued. -/
theorem Still.meet_arrive {segment : Segment} {segments : List Segment} (h : p.Still s)
    (hcoming : p.coming = (segment :: segments).map .arrive) :
    p.meet (.arrive segment) =
        (false, { p with inbox := { p.inbox with queue := p.inbox.queue ++ [segment] } }) ∧
      { p with
        inbox := { p.inbox with queue := p.inbox.queue ++ [segment] }
        coming := segments.map .arrive : Process }.Still s := by
  obtain ⟨segments', hcoming', hplain, hflow⟩ := h.coming
  obtain rfl : segments' = segment :: segments := by
    rw [hcoming] at hcoming'
    exact (List.map_inj_right fun _ _ => Stimulus.arrive.inj).1 hcoming'.symm
  have hsegment := hplain segment List.mem_cons_self
  constructor
  · have hfew : ¬ segment.descriptors.length > Pipe.maxSent := by
      have hsingle := hsegment.single
      show ¬ segment.descriptors.length > 253
      omega
    have hempty : segment.octets.isEmpty = false := by
      rw [List.isEmpty_eq_false_iff]
      exact hsegment.nonempty
    simp only [meet, Pipe.send, if_neg hfew, h.shut_eq, Bool.false_eq_true, if_false, hempty]
  · refine ⟨h.running, h.arrivals_eq, h.peer_there, h.shut_eq, h.reset_eq, ?_,
      segments, rfl, fun s hmem => hplain s (List.mem_cons_of_mem _ hmem), ?_⟩
    · intro s hmem
      rcases List.mem_append.1 hmem with hmem | hmem
      · exact h.queued s hmem
      · exact List.mem_singleton.1 hmem ▸ hsegment
    · rw [← hflow, List.append_assoc]
      rfl

/-- What is left to read when the front part of the inbox was taken. -/
theorem Still.taken {front : Stream} {queue : List Segment} (h : p.Still s)
    (hflow : Segment.flow p.inbox.queue = front ++ Segment.flow queue)
    (hplain : ∀ segment ∈ queue, segment.Plain) :
    ∃ back, s = front ++ back ∧
      { p with inbox := { p.inbox with queue } : Process }.Still back := by
  obtain ⟨segments, hcoming, hsegments, rfl⟩ := h.coming
  refine ⟨Segment.flow (queue ++ segments), ?_, h.running, h.arrivals_eq, h.peer_there, h.shut_eq,
    h.reset_eq, hplain, segments, hcoming, hsegments, rfl⟩
  rw [Segment.flow_append, hflow, List.append_assoc, Segment.flow_append]

/-- A read looks at the inbox, and waits if that is empty. -/
theorem Still.read_eq (h : p.Still s) (n : Nat) :
    p.read n =
      match p.readNow n with
      | some (r, p) => (some r, p)
      | none => await (readAgain n) p.coming p := by
  cases hnow : p.readNow n with
  | none => simp only [Process.read, h.preempt_eq, h.running, hnow]
  | some => simp only [Process.read, h.preempt_eq, h.running, hnow]

/-- A read that waits goes on when the peer writes. -/
theorem Still.await_cons {segment : Segment} {coming : List Stimulus} {p' : Process}
    (hmeet : p.meet (.arrive segment) = (false, p')) (h : { p' with coming : Process }.Still s) :
    await (readAgain n) (.arrive segment :: coming) p =
      match { p' with coming : Process }.readNow n with
      | some (r, p) => (some r, p)
      | none => await (readAgain n) coming { p' with coming } := by
  have hrunning : p'.status = .running := h.running
  simp only [await, hmeet]
  split
  · next hended => cases hended.symm.trans hrunning
  · next hsuspended => cases hsuspended.symm.trans hrunning
  · simp only [readAgain, Bool.false_eq_true, if_false]
    cases { p' with coming : Process }.readNow n <;> rfl

/-- A read brings the front part of what can be read, or waits for ever where there is nothing. -/
theorem Still.read (h : p.Still s) (hn : n ≠ 0) :
    (s = [] ∧ p.read n = (none, { p with coming := [] }) ∧
      { p with coming := [] : Process }.Still []) ∨
    ∃ (front back : Stream) (inbox : Pipe) (coming : List Stimulus), front ≠ [] ∧
      s = front ++ back ∧
      p.read n = (some (.data front.octets front.descriptors), { p with inbox, coming }) ∧
      { p with inbox, coming : Process }.Still back := by
  obtain ⟨segments, hcoming, hplain, hflow⟩ := h.coming
  rw [h.read_eq]
  rcases h.readNow hn with ⟨hempty, hnow⟩ | ⟨front, queue, hne, hfront, hqueue, hnow⟩
  · rw [hnow, hcoming]
    cases segments with
    | nil =>
      obtain rfl : [] = s := by rw [← hflow, hempty]; rfl
      refine .inl ⟨rfl, rfl, h.running, h.arrivals_eq, h.peer_there, h.shut_eq, h.reset_eq,
        h.queued, [], rfl, hplain, ?_⟩
      rw [hempty]
      rfl
    | cons segment segments =>
      obtain ⟨hmeet, hstill⟩ := h.meet_arrive hcoming
      have hwait := Still.await_cons (n := n) hmeet hstill
      right
      rcases hstill.readNow hn with ⟨hnone, -⟩ | ⟨front, queue, hne, hfront, hqueue, hnow'⟩
      · exact absurd hnone (List.append_ne_nil_of_right_ne_nil _ (List.cons_ne_nil _ _))
      · obtain ⟨back, hs, hback⟩ := hstill.taken hfront hqueue
        refine ⟨front, back, _, _, hne, hs, ?_, hback⟩
        rw [hnow'] at hwait
        exact hwait
  · rw [hnow]
    obtain ⟨back, hs, hback⟩ := h.taken hfront hqueue
    exact .inr ⟨front, back, _, _, hne, hs, rfl, hback⟩

/-- **The reads of a process that only its peer has to do with** bring what the peer writes. -/
theorem carries_still (p₀ : Process) : transport.Carries (Follows p₀) false := by
  intro p s ⟨hstill, heq⟩
  show transport.Yields (Follows p₀) false p s (p.read Channel.chunkSize)
  rcases hstill.read (by decide : Channel.chunkSize ≠ 0) with
    ⟨hs, hread, hdry⟩ | ⟨front, back, inbox, coming, hne, hs, hread, hback⟩
  · rw [hread]
    exact .dry hs ⟨hdry, congrArg (fun p => { p with coming := [] }) heq⟩
  · rw [hread]
    refine .brings hne hs ⟨hback, congrArg (fun p => { p with inbox, coming }) heq⟩ ?_
    refine transport_lawful.inflow_read p _ _ _ hread ?_
    simpa [Reading.continues, Reading.data] using hne

end Overseer.Process
