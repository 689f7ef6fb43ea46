import Overseer.Process.Basic

/-!
# The end of a pair is a lawful transport

Nothing but a write of the peer adds to an inbox, so every read that is answered by reading again
has used up octets of the inbox or something that was still to happen (`Process.transport_lawful`).
-/

namespace Overseer.Process

@[simp] theorem size_shutRead (p : Process) (fd : Option Int) :
    (p.shutRead fd).inbox.size = p.inbox.size := by
  unfold shutRead; split <;> rfl

@[simp] theorem coming_shutRead (p : Process) (fd : Option Int) :
    (p.shutRead fd).coming = p.coming := by
  unfold shutRead; split <;> rfl

@[simp] theorem inflow_act (p : Process) (signal : Signal) :
    (p.act signal).2.inflow = p.inflow := by
  unfold act; split <;> simp [inflow]

@[simp] theorem coming_act (p : Process) (signal : Signal) :
    (p.act signal).2.coming = p.coming := by
  unfold act; split <;> simp

@[simp] theorem inflow_hold (p : Process) (signal : Signal) :
    (p.hold signal).inflow = p.inflow := by
  unfold hold; split <;> rfl

@[simp] theorem coming_hold (p : Process) (signal : Signal) :
    (p.hold signal).coming = p.coming := by
  unfold hold; split <;> rfl

/-- A fold of steps that each keep something keeps it. -/
private theorem foldl_keeps {α β γ : Type} (f : α → β → α) (view : α → γ)
    (h : ∀ a b, view (f a b) = view a) (a : α) (bs : List β) : view (bs.foldl f a) = view a := by
  induction bs generalizing a with
  | nil => rfl
  | cons b bs ih => rw [List.foldl_cons, ih, h]

theorem inflow_release (x : Bool × Process) (signal : Signal) :
    (release x signal).2.inflow = x.2.inflow := by
  unfold release; split <;> simp

theorem coming_release (x : Bool × Process) (signal : Signal) :
    (release x signal).2.coming = x.2.coming := by
  unfold release; split <;> simp

/-- Signals leave the inbox and what is still to come as they are. -/
theorem deliver_keeps (p : Process) (signal : Signal) :
    (p.deliver signal).2.inflow = p.inflow ∧ (p.deliver signal).2.coming = p.coming := by
  unfold deliver
  split
  · simp
  · simp
  · split
    · exact ⟨rfl, rfl⟩
    · split
      · exact ⟨foldl_keeps release (fun x => x.2.inflow) inflow_release _ _,
          foldl_keeps release (fun x => x.2.coming) coming_release _ _⟩
      · simp

theorem inflow_preempt (p : Process) : p.preempt.inflow = p.inflow := by
  unfold preempt
  split
  · rfl
  · rw [foldl_keeps _ inflow fun p s => (deliver_keeps p s).1]
    rfl

theorem size_send (pipe : Pipe) (s : Segment) :
    (pipe.send s).2.size ≤ pipe.size + s.octets.length := by
  unfold Pipe.send
  split
  · simp
  · split
    · simp
    · split <;> simp [Pipe.size]

/-- What happens to a process adds no more to its inbox than its weight allows. -/
theorem meet_keeps (p : Process) (stimulus : Stimulus) :
    (p.meet stimulus).2.inbox.size < p.inbox.size + weight stimulus ∧
      (p.meet stimulus).2.coming = p.coming := by
  cases stimulus with
  | arrive segment =>
    refine ⟨?_, rfl⟩
    have := size_send p.inbox segment
    simp only [meet, weight]
    omega
  | finish => exact ⟨Nat.lt_succ_self _, rfl⟩
  | hangUp unread => exact ⟨Nat.lt_succ_self _, rfl⟩
  | signal signal =>
    obtain ⟨h, hc⟩ := deliver_keeps p signal
    simp only [inflow, hc] at h
    refine ⟨?_, hc⟩
    simp only [meet, weight]
    omega

/-- Waiting that ends has used up something that was still to come. -/
theorem inflow_await {β : Type} {goesOn : Bool → Process → Option (β × Process)}
    (hgo : ∀ ran p b p', goesOn ran p = some (b, p') → p'.inflow ≤ p.inflow)
    {coming : List Stimulus} {p p' : Process} {b : β}
    (h : await goesOn coming p = (some b, p')) :
    p'.inflow < p.inbox.size + total weight coming := by
  induction coming generalizing p with
  | nil => simp [await] at h
  | cons stimulus coming ih =>
    obtain ⟨hsize, -⟩ := meet_keeps p stimulus
    simp only [await] at h
    simp only [total_cons]
    split at h
    · simp at h
    · have := ih h
      simp only at this
      omega
    · split at h
      · next hsome =>
        have := hgo _ _ _ _ hsome
        obtain ⟨rfl, rfl⟩ := by simpa using h
        simp only [inflow] at this ⊢
        omega
      · have := ih h
        simp only at this
        omega

theorem inflow_readNow {p p' : Process} {n : Nat} {r : Reading} (h : p.readNow n = some (r, p')) :
    p'.inflow ≤ p.inflow ∧ (r.continues = true → p'.inflow < p.inflow) := by
  unfold readNow at h
  split at h
  · next r inbox hread =>
    obtain ⟨rfl, rfl⟩ := by simpa using h
    refine ⟨?_, fun hr => ?_⟩
    · have := Pipe.size_read_le hread
      simpa [inflow] using this
    · have := Pipe.size_read hread hr
      simpa [inflow] using this
  · simp at h

theorem transport_lawful : transport.Lawful where
  inflow_read p n r p' h hr := by
    simp only [transport, read] at h ⊢
    have hgo : ∀ ran (p : Process) b p', readAgain n ran p = some (b, p') →
        p'.inflow ≤ p.inflow := by
      intro ran p b p' hsome
      unfold readAgain at hsome
      split at hsome
      · obtain ⟨-, rfl⟩ := by simpa using hsome
        exact Nat.le_refl _
      · exact (inflow_readNow hsome).1
    have hstart : p.preempt.inbox.size + total weight p.preempt.coming = p.inflow :=
      inflow_preempt p
    split at h
    · simp at h
    · have := inflow_await hgo h
      omega
    · split at h
      · next hnow =>
        obtain ⟨rfl, rfl⟩ := by simpa using h
        have := (inflow_readNow hnow).2 hr
        rwa [inflow_preempt] at this
      · have := inflow_await hgo h
        omega
  write_le p xs d n p' h := by
    simp only [transport, write] at h
    repeat' split at h
    all_goals simp at h
    all_goals omega
  stalls_write _ _ _ _ _ _ := Nat.le_refl _
  stalls_interrupted p xs d e p' h he := by
    simp only [transport, write] at h
    repeat' split at h
    all_goals simp at h
    obtain ⟨rfl, -⟩ := h
    simp [IoError.kind, IoError.brokenPipe, Errno.kind] at he

end Overseer.Process
