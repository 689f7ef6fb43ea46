import Overseer.Proofs.Process.Course

/-!
# Tidy queues

Nothing empty is ever queued (`Pipe.Tidy`): a segment without octets is not written, and what a read
leaves of one has some. So a read of what is queued brings something, and an inbox stays tidy
whatever happens to its process (`Process.Course.tidy`).
-/

namespace Overseer

namespace Pipe

/-- Nothing empty is queued. -/
def Tidy (p : Pipe) : Prop := ∀ s ∈ p.queue, s.octets ≠ []

variable {p p' : Pipe} {n : Nat} {r : Reading}

theorem Tidy.send (h : p.Tidy) (segment : Segment) : (p.send segment).2.Tidy := by
  unfold Pipe.send
  split
  · exact h
  · split
    · exact h
    · split
      · exact h
      · next hne =>
        intro s hs
        rcases List.mem_append.1 hs with hs | hs
        · exact h s hs
        · rw [List.mem_singleton.1 hs]
          exact fun hempty => hne (List.isEmpty_iff.2 hempty)

/-- What is left behind a read was queued before, or is the rest of what was. -/
theorem ne_nil_of_mem_gather {w : Bool} {c : Option Bool} {queue : List Segment}
    (h : ∀ s ∈ queue, s.octets ≠ []) : ∀ s ∈ (gather w n c queue).2.2, s.octets ≠ [] := by
  induction queue generalizing n c with
  | nil => nofun
  | cons segment queue ih =>
    simp only [gather]
    split
    · exact h
    · split
      · next hrest =>
        intro s hs
        rcases List.mem_cons.1 hs with rfl | hs
        · simpa using hrest
        · exact h s (List.mem_cons_of_mem _ hs)
      · split
        · exact fun s hs => h s (List.mem_cons_of_mem _ hs)
        · exact ih fun s hs => h s (List.mem_cons_of_mem _ hs)

/-- A read leaves a tidy queue. -/
theorem Tidy.read (h : p.Tidy) (hread : p.read false n = (some r, p')) : p'.Tidy := by
  unfold Pipe.read at hread
  split at hread
  · split at hread
    · cases hread
      exact h
    · split at hread <;> cases hread
      exact h
  · next segment queue hqueue =>
    cases hread
    rw [Tidy, hqueue] at h
    exact ne_nil_of_mem_gather h

/-- A read that has room for an octet gets one. -/
theorem gather_ne_nil {w : Bool} {segment : Segment} {queue : List Segment} (hn : n ≠ 0)
    (h : segment.octets ≠ []) : (gather w n none (segment :: queue)).1 ≠ [] := by
  have hgo : ¬ (n = 0 ∨ w = true ∧ (none : Option Bool).any (· != segment.credentials) = true) := by
    simp [hn]
  simp only [gather, if_neg hgo]
  split
  · simp [hn, h]
  · split
    · exact h
    · exact List.append_ne_nil_of_left_ne_nil h _

end Pipe

namespace Process

variable {p p' : Process} {notes : List Note}

theorem queue_shutRead (p : Process) (fd : Option Int) :
    (p.shutRead fd).inbox.queue = p.inbox.queue := by
  unfold shutRead
  split <;> rfl

theorem queue_act (p : Process) (signal : Signal) :
    (p.act signal).2.inbox.queue = p.inbox.queue := by
  unfold act
  split <;> first | rfl | exact queue_shutRead ..

/-- **A tidy inbox stays tidy**, whatever happens to the process. -/
theorem Course.tidy (h : Course p notes p') (htidy : p.inbox.Tidy) : p'.inbox.Tidy := by
  induction h with
  | own h => rwa [h.inbox_eq]
  | collect => exact htidy
  | act signal =>
    rw [Pipe.Tidy, queue_act]
    exact htidy
  | request p signal =>
    rw [Pipe.Tidy, requestQuit, queue_shutRead]
    exact htidy
  | @outside p stimulus _ _ hs =>
    cases stimulus with
    | arrive segment => exact htidy.send segment
    | finish | hangUp => exact htidy
    | signal signal => exact absurd rfl (hs signal)
  | read hread => exact htidy.read hread
  | trans _ _ ih ih' => exact ih' (ih htidy)

end Process

end Overseer
