import Overseer.Proofs.Channel.Sending
import Overseer.Proofs.Process.Course

/-!
# What was written plays no part in a read

Reading neither looks at what the process has written nor changes it: a read of the process with
other things written (`Process.withSent`) is the same read (`Process.withSent_read`). So a process
that has written something goes on to read what it would have read without that.
-/

namespace Overseer.Process

/-- The process if it had written something else. -/
def withSent (p : Process) (sent : List Segment) : Process := { p with sent }

variable (p : Process) (sent : List Segment)

theorem withSent_self : p.withSent p.sent = p := rfl

/-! ## Signals -/

theorem withSent_shutRead (fd : Option Int) :
    (p.withSent sent).shutRead fd = (p.shutRead fd).withSent sent := by
  unfold shutRead
  by_cases h : fd = some p.socket
  · have h' : fd = some (p.withSent sent).socket := h
    rw [if_pos h, if_pos h']
    rfl
  · have h' : ¬ fd = some (p.withSent sent).socket := h
    rw [if_neg h, if_neg h']

theorem withSent_act (signal : Signal) :
    (p.withSent sent).act signal = ((p.act signal).1, (p.act signal).2.withSent sent) := by
  unfold act
  rw [show (p.withSent sent).signals = p.signals from rfl]
  generalize p.signals.deliver signal = out
  obtain ⟨delivery, signals⟩ := out
  cases delivery with
  | ignored => rfl
  | unbound effect => cases effect <;> rfl
  | handled shut => exact congrArg _ (withSent_shutRead { p with signals } sent shut)

theorem withSent_hold (signal : Signal) :
    (p.withSent sent).hold signal = (p.hold signal).withSent sent := by
  unfold hold
  rw [show (p.withSent sent).status = p.status from rfl]
  cases p.status <;> rfl

theorem withSent_release (x : Bool × Process) (signal : Signal) :
    release (x.1, x.2.withSent sent) signal =
      ((release x signal).1, (release x signal).2.withSent sent) := by
  unfold release
  by_cases h : x.2.status = .running
  · have h' : (x.2.withSent sent).status = .running := h
    simp only [if_pos h, if_pos h', withSent_act]
  · have h' : ¬ (x.2.withSent sent).status = .running := h
    simp only [if_neg h, if_neg h', withSent_hold]

theorem withSent_releases (signals : List Signal) (x : Bool × Process) :
    signals.foldl release (x.1, x.2.withSent sent) =
      ((signals.foldl release x).1, (signals.foldl release x).2.withSent sent) := by
  induction signals generalizing x with
  | nil => rfl
  | cons signal signals ih =>
    rw [List.foldl_cons, List.foldl_cons, withSent_release, ih]

theorem withSent_deliver (signal : Signal) :
    (p.withSent sent).deliver signal =
      ((p.deliver signal).1, (p.deliver signal).2.withSent sent) := by
  unfold deliver
  rw [show (p.withSent sent).status = p.status from rfl]
  cases p.status with
  | running => exact withSent_act p sent signal
  | ended => rfl
  | suspended held =>
    simp only
    split
    · rfl
    · split
      · exact withSent_releases sent _ (false, { p with status := .running })
      · rw [withSent_hold]

theorem withSent_preempt : (p.withSent sent).preempt = p.preempt.withSent sent := by
  have hfold (signals : List Signal) (p : Process) :
      signals.foldl (fun p s => (p.deliver s).2) (p.withSent sent) =
        (signals.foldl (fun p s => (p.deliver s).2) p).withSent sent := by
    induction signals generalizing p with
    | nil => rfl
    | cons signal signals ih => rw [List.foldl_cons, List.foldl_cons, withSent_deliver, ih]
  unfold preempt
  rw [show (p.withSent sent).arrivals = p.arrivals from rfl]
  cases p.arrivals with
  | nil => rfl
  | cons signals arrivals => exact hfold signals { p with arrivals }

/-! ## Reading -/

theorem withSent_meet (stimulus : Stimulus) :
    (p.withSent sent).meet stimulus =
      ((p.meet stimulus).1, (p.meet stimulus).2.withSent sent) := by
  cases stimulus with
  | arrive | finish | hangUp => rfl
  | signal signal => exact withSent_deliver p sent signal

theorem withSent_readNow (n : Nat) :
    (p.withSent sent).readNow n = (p.readNow n).map fun (r, p) => (r, p.withSent sent) := by
  unfold readNow
  rw [show (p.withSent sent).inbox = p.inbox from rfl]
  generalize p.inbox.read false n = out
  obtain ⟨r, inbox⟩ := out
  cases r <;> rfl

theorem withSent_readAgain (n : Nat) (ran : Bool) :
    readAgain n ran (p.withSent sent) =
      (readAgain n ran p).map fun (r, p) => (r, p.withSent sent) := by
  unfold readAgain
  split
  · rfl
  · exact withSent_readNow p sent n

theorem withSent_await (n : Nat) (coming : List Stimulus) :
    await (readAgain n) coming (p.withSent sent) =
      ((await (readAgain n) coming p).1, (await (readAgain n) coming p).2.withSent sent) := by
  induction coming generalizing p with
  | nil => rfl
  | cons stimulus coming ih =>
    simp only [await, withSent_meet]
    generalize p.meet stimulus = out
    obtain ⟨ran, p⟩ := out
    have hgo := withSent_readAgain { p with coming } sent n ran
    have hrest := ih { p with coming }
    obtain ⟨signals, status, inbox, _, peerGone, socket, descriptors, _, arrivals, background⟩ := p
    cases status with
    | ended => rfl
    | suspended => exact hrest
    | running =>
      simp only [withSent] at hgo hrest ⊢
      rw [hgo]
      cases readAgain n ran _ with
      | none => exact hrest
      | some out => rfl

/-- **A read does not look at what was written**, and leaves it as it is. -/
theorem withSent_read (n : Nat) :
    (p.withSent sent).read n = ((p.read n).1, (p.read n).2.withSent sent) := by
  unfold read
  simp only [withSent_preempt]
  generalize p.preempt = p
  rw [show (p.withSent sent).status = p.status from rfl]
  cases p.status with
  | ended => rfl
  | suspended => exact withSent_await p sent n p.coming
  | running =>
    simp only [withSent_readNow]
    cases p.readNow n with
    | none => exact withSent_await p sent n p.coming
    | some out => rfl

theorem sent_read (n : Nat) : (p.read n).2.sent = p.sent := by
  have hread := withSent_read p p.sent n
  rw [withSent_self] at hread
  rw [hread]
  rfl

/-! ## Writing -/

/-- A write adds to what was written, and does nothing else. -/
theorem write_withSent (xs : Octets) (d : Option Descriptor) :
    ∃ sent, (p.write xs d).2 = p.withSent sent := by
  unfold write
  split
  · exact ⟨p.sent, rfl⟩
  · split
    · exact ⟨p.sent, rfl⟩
    · exact ⟨_, rfl⟩

theorem writes_withSent {p : Process} {xs : Octets} {d : Option Descriptor}
    {out : Except ChannelError Unit × Process} (h : Channel.Writes transport xs d p out) :
    ∃ sent, out.2 = p.withSent sent := by
  have hwrite {p p' : Process} {xs : Octets} {d : Option Descriptor} {r : Except IoError Nat}
      (h : transport.write p xs d = (r, p')) : ∃ sent, p' = p.withSent sent := by
    have hsent := write_withSent p xs d
    rwa [show p.write xs d = (r, p') from h] at hsent
  induction h with
  | done => exact ⟨_, rfl⟩
  | refused _ h | failed _ _ h => exact hwrite h
  | accepted _ _ h _ ih | interrupted _ _ h _ ih =>
    obtain ⟨sent, rfl⟩ := hwrite h
    exact ih

/-- A call for the next frame writes nothing. -/
theorem sent_fetches {c : Channel} {p : Process}
    {out : Reception (Frame × Option Descriptor) × Channel × Process}
    (h : Channel.Fetches transport c p out) : out.2.2.sent = p.sent := by
  have hread {p p' : Process} {r : Option Reading}
      (h : transport.read p Channel.chunkSize = (r, p')) : p'.sent = p.sent := by
    have hsent := sent_read p Channel.chunkSize
    rwa [show p.read Channel.chunkSize = (r, p') from h] at hsent
  induction h with
  | settled => rfl
  | dry _ h | broken _ h _ => exact hread h
  | onward _ h _ _ ih => exact ih.trans (hread h)

end Overseer.Process
