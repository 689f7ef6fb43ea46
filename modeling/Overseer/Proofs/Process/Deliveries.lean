import Overseer.Proofs.Channel.Sending
import Overseer.Proofs.Process.Inflow

/-!
# What signals do while a process waits

A process that is preempted, waits or reads does nothing to its signals. What happens to them
meanwhile is that signals are delivered (`SignalState.Delivered`), and the delivery of a signal
binds nothing anew.
-/

namespace Overseer

namespace SignalState

/-- One state of the signals becomes another one because signals are delivered. -/
def Delivered (s s' : SignalState) : Prop :=
  ∃ signals : List Signal, signals.foldl (fun s signal => (s.deliver signal).2) s = s'

variable {s s' s'' : SignalState}

theorem Delivered.refl (s : SignalState) : Delivered s s := ⟨[], rfl⟩

theorem Delivered.of_deliver (s : SignalState) (signal : Signal) :
    Delivered s (s.deliver signal).2 := ⟨[signal], rfl⟩

theorem Delivered.trans (h : Delivered s s') (h' : Delivered s' s'') : Delivered s s'' := by
  obtain ⟨signals, rfl⟩ := h
  obtain ⟨signals', rfl⟩ := h'
  exact ⟨signals ++ signals', List.foldl_append⟩

/-- Signals that are the same have had nothing delivered. -/
theorem Delivered.of_eq (h : s' = s) : Delivered s s' := by
  rw [h]
  exact .refl s

theorem deliver_dispositions (s : SignalState) (signal : Signal) :
    (s.deliver signal).2.dispositions = s.dispositions := by
  unfold deliver
  cases s.dispositions signal <;> rfl

/-- **No delivery binds a signal anew.** -/
theorem Delivered.dispositions_eq (h : Delivered s s') : s'.dispositions = s.dispositions := by
  obtain ⟨signals, rfl⟩ := h
  induction signals generalizing s with
  | nil => rfl
  | cons signal signals ih =>
    rw [List.foldl_cons, ih, deliver_dispositions]

end SignalState

namespace Process

open SignalState

variable {p p' : Process}

theorem delivered_act (p : Process) (signal : Signal) :
    p.signals.Delivered (p.act signal).2.signals := by
  rw [signals_act]
  exact .of_deliver _ _

theorem signals_hold (p : Process) (signal : Signal) : (p.hold signal).signals = p.signals := by
  unfold hold
  split <;> rfl

/-- A signal that was held back is delivered, or is held back again. -/
theorem delivered_release (x : Bool × Process) (signal : Signal) :
    x.2.signals.Delivered (release x signal).2.signals := by
  unfold release
  split
  · exact delivered_act x.2 signal
  · exact .of_eq (signals_hold x.2 signal)

theorem delivered_foldl_release (x : Bool × Process) (signals : List Signal) :
    x.2.signals.Delivered (signals.foldl release x).2.signals := by
  induction signals generalizing x with
  | nil => exact .refl _
  | cons signal signals ih => exact (delivered_release x signal).trans (ih _)

theorem delivered_deliver (p : Process) (signal : Signal) :
    p.signals.Delivered (p.deliver signal).2.signals := by
  unfold Process.deliver
  split
  · exact delivered_act p signal
  · exact .refl _
  · split
    · exact .refl _
    · split
      · exact delivered_foldl_release (false, { p with status := .running }) _
      · exact .of_eq (signals_hold p signal)

theorem delivered_preempt (p : Process) : p.signals.Delivered p.preempt.signals := by
  have hall : ∀ (signals : List Signal) (p : Process),
      p.signals.Delivered (signals.foldl (fun p s => (p.deliver s).2) p).signals := by
    intro signals
    induction signals with
    | nil => exact fun p => .refl _
    | cons signal signals ih => exact fun p => (delivered_deliver p signal).trans (ih _)
  unfold preempt
  split
  · exact .refl _
  · next signals arrivals _ => exact hall signals { p with arrivals }

theorem delivered_meet (p : Process) (stimulus : Stimulus) :
    p.signals.Delivered (p.meet stimulus).2.signals := by
  cases stimulus with
  | signal signal => exact delivered_deliver p signal
  | arrive | finish | hangUp => exact .refl _

/-- A process that waits has signals delivered until it goes on. -/
theorem delivered_await {β : Type} {goesOn : Bool → Process → Option (β × Process)}
    (hgo : ∀ ran p b p', goesOn ran p = some (b, p') → p.signals.Delivered p'.signals)
    (coming : List Stimulus) (p : Process) :
    p.signals.Delivered (await goesOn coming p).2.signals := by
  induction coming generalizing p with
  | nil => exact .refl _
  | cons stimulus coming ih =>
    have hmeet : p.signals.Delivered ({ (p.meet stimulus).2 with coming } : Process).signals :=
      delivered_meet p stimulus
    unfold await
    simp only
    split
    · exact hmeet
    · exact hmeet.trans (ih _)
    · split
      · next hsome => exact hmeet.trans (hgo _ _ _ _ hsome)
      · exact hmeet.trans (ih _)

theorem delivered_resume (p : Process) : p.signals.Delivered p.resume.signals := by
  unfold resume
  split
  · exact .refl _
  · refine delivered_await (fun ran p b p' h => ?_) _ p
    cases h
    exact .refl _

theorem signals_readNow {n : Nat} {r : Reading} (h : p.readNow n = some (r, p')) :
    p'.signals = p.signals := by
  unfold readNow at h
  split at h <;> cases h
  rfl

theorem signals_readAgain {ran : Bool} {n : Nat} {r : Reading}
    (h : readAgain n ran p = some (r, p')) : p'.signals = p.signals := by
  unfold readAgain at h
  split at h
  · cases h
    rfl
  · exact signals_readNow h

/-- **Reading has signals delivered**, and does nothing else to them. -/
theorem delivered_readOn (p : Process) (n : Nat) :
    p.signals.Delivered (p.readOn n).2.signals := by
  have hgo : ∀ ran (p : Process) r p', readAgain n ran p = some (r, p') →
      p.signals.Delivered p'.signals := fun _ _ _ _ h => .of_eq (signals_readAgain h)
  unfold readOn
  split
  · exact .refl _
  · exact delivered_await hgo _ p
  · split
    · next hnow => exact .of_eq (signals_readNow hnow)
    · exact delivered_await hgo _ p

/-- A call for the next frame has signals delivered. -/
theorem delivered_fetches {c : Channel} {p : Process}
    {out : Reception (Frame × Option Descriptor) × Channel × Process}
    (h : Channel.Fetches transport c p out) : p.signals.Delivered out.2.2.signals := by
  have hread : ∀ {p p' : Process} {r : Option Reading},
      transport.read p Channel.chunkSize = (r, p') → p.signals.Delivered p'.signals := by
    intro p p' r h
    have hfirst := delivered_preempt p
    have hrest := delivered_readOn p.preempt Channel.chunkSize
    rw [← read_eq, show p.read Channel.chunkSize = (r, p') from h] at hrest
    exact hfirst.trans hrest
  induction h with
  | settled => exact .refl _
  | dry _ h | broken _ h _ => exact hread h
  | onward _ h _ _ ih => exact (hread h).trans ih

end Process

end Overseer
