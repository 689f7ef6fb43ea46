import Overseer.Channel.Transport

/-!
# One direction of a socket pair

What one end writes lies in a queue until the other end reads it. Each write is a `Segment` with
the descriptors that it carries. A read glues segments together, but stops behind one that carried
descriptors (`Pipe.gather`), so descriptors come with the first octet they were written with.

A `Pipe` that is shut takes no more and ends after what is queued; one whose writer left without
reading what it had been sent is reset, which the reader notices once, after the queue.
-/

namespace Overseer

/-- What was written at once. -/
structure Segment where
  octets : Octets
  descriptors : List Descriptor := []
  /-- Whether the writer's credentials are attached. -/
  credentials : Bool := false
  deriving DecidableEq, Inhabited

/-- One direction of a socket pair. -/
structure Pipe where
  queue : List Segment := []
  /-- Whether either end has shut this direction. -/
  shut : Bool := false
  /-- Whether the reader is still to be told that the writer left without reading. -/
  reset : Bool := false
  deriving DecidableEq, Inhabited

namespace Pipe

/-- The most descriptors that one write may carry. -/
def maxSent : Nat := 253

/-- The most descriptors that one read has room for. -/
def maxReceived : Nat := 8

/-- Queues a segment. -/
def send (p : Pipe) (s : Segment) : Except IoError Nat × Pipe :=
  if s.descriptors.length > maxSent then (.error (.os .invalidArgument), p)
  else if p.shut then (.error .brokenPipe, p)
  else if s.octets.isEmpty then (.ok 0, p)
  else (.ok s.octets.length, { p with queue := p.queue ++ [s] })

/-- No more is taken than was sent. -/
theorem send_ok {p : Pipe} {s : Segment} {n : Nat} (h : (p.send s).1 = .ok n) :
    n ≤ s.octets.length := by
  unfold send at h
  split at h
  · cases h
  · split at h
    · cases h
    · split at h
      · cases h
        exact Nat.zero_le _
      · cases h
        exact Nat.le_refl _

/-- Sending is not interrupted. -/
theorem send_error {p : Pipe} {s : Segment} {e : IoError} (h : (p.send s).1 = .error e) :
    e.kind ≠ .interrupted := by
  unfold send at h
  split at h
  · cases h
    decide
  · split at h
    · cases h
      decide
    · split at h <;> cases h

/-- Takes at most `n` octets off a queue, with the descriptors that come with them. A reader who is
given credentials gets them for one writer at a time; `credentials` are those of the octets before,
if there are any. -/
def gather (wantsCredentials : Bool) :
    Nat → Option Bool → List Segment → Octets × List Descriptor × List Segment
  | _, _, [] => ([], [], [])
  | n, credentials, s :: queue =>
    if n = 0 ∨ (wantsCredentials ∧ credentials.any (· != s.credentials)) then ([], [], s :: queue)
    else
      let rest := s.octets.drop n
      if !rest.isEmpty then
        (s.octets.take n, s.descriptors, { s with octets := rest, descriptors := [] } :: queue)
      else if !s.descriptors.isEmpty then (s.octets, s.descriptors, queue)
      else
        let (xs, ds, queue) :=
          gather wantsCredentials (n - s.octets.length) (some s.credentials) queue
        (s.octets ++ xs, ds, queue)

/-- What a reader gets of octets and descriptors. There is room for a few descriptors, and for none
beside credentials; if more come the read fails and its octets are lost. -/
def received (wantsCredentials : Bool) (xs : Octets) (ds : List Descriptor) : Reading :=
  let room := if wantsCredentials then 0 else maxReceived
  if ds.length ≤ room then .data xs ds else ⟨.error .descriptorsLost, ds.take room⟩

/-- Reads at most `n` octets. There is no answer if nothing is queued and more may come. -/
def read (wantsCredentials : Bool) (n : Nat) (p : Pipe) : Option Reading × Pipe :=
  match p.queue with
  | [] =>
    if p.reset then (some (.failure .connectionReset), { p with reset := false })
    else if p.shut then (some .atEnd, p)
    else (none, p)
  | s :: queue =>
    let (xs, ds, queue) := gather wantsCredentials n none (s :: queue)
    (some (received wantsCredentials xs ds), { p with queue })

/-- The octets that are queued. -/
def size (p : Pipe) : Nat := total (fun s => s.octets.length) p.queue

theorem length_gather (w : Bool) (n : Nat) (c : Option Bool) (queue : List Segment) :
    (gather w n c queue).1.length + total (fun s => s.octets.length) (gather w n c queue).2.2 =
      total (fun s => s.octets.length) queue := by
  induction queue generalizing n c with
  | nil => simp [gather]
  | cons s queue ih =>
    simp only [gather]
    split
    · simp
    · split
      · simp; omega
      · split
        · simp
        · simp [Nat.add_assoc, ih]

theorem ne_nil_of_received {w : Bool} {xs : Octets} {ds : List Descriptor}
    (h : (received w xs ds).continues = true) : xs ≠ [] := by
  by_cases hroom : ds.length ≤ if w then 0 else maxReceived
  · simpa [received, hroom, Reading.continues, Reading.data] using h
  · simp [received, hroom, Reading.continues, IoError.descriptorsLost, IoError.kind] at h

/-- A read adds nothing to the queue. -/
theorem size_read_le {w : Bool} {n : Nat} {p p' : Pipe} {r : Option Reading}
    (h : read w n p = (r, p')) : p'.size ≤ p.size := by
  simp only [read] at h
  split at h
  · next hq =>
    split at h
    · obtain ⟨-, rfl⟩ := by simpa using h
      simp [size, hq]
    · split at h
      all_goals
        obtain ⟨-, rfl⟩ := by simpa using h
        exact Nat.le_refl _
  · next s queue hq =>
    obtain ⟨-, rfl⟩ := by simpa using h
    have hsize := length_gather w n none (s :: queue)
    have hp : p.size = total (fun s => s.octets.length) (s :: queue) := by rw [size, hq]
    rw [hp, ← hsize]
    exact Nat.le_add_left _ _

/-- A read that a reader answers by reading again takes octets off the queue. -/
theorem size_read {w : Bool} {n : Nat} {p p' : Pipe} {r : Reading}
    (h : read w n p = (some r, p')) (hr : r.continues = true) : p'.size < p.size := by
  simp only [read] at h
  split at h
  · split at h
    · obtain ⟨rfl, rfl⟩ := by simpa using h
      simp [Reading.continues, Reading.failure, IoError.connectionReset, IoError.kind,
        Errno.kind] at hr
    · split at h
      · obtain ⟨rfl, rfl⟩ := by simpa using h
        simp [Reading.continues, Reading.atEnd, Reading.data] at hr
      · simp at h
  · next s queue hq =>
    obtain ⟨rfl, rfl⟩ := by simpa using h
    have hsize := length_gather w n none (s :: queue)
    have hpos := List.length_pos_iff.mpr (ne_nil_of_received hr)
    have hp : p.size = total (fun s => s.octets.length) (s :: queue) := by rw [size, hq]
    have hp' : ∀ queue, size { p with queue } = total (fun s => s.octets.length) queue :=
      fun _ => rfl
    rw [hp, hp', ← hsize]
    exact Nat.lt_add_of_pos_left hpos

end Pipe

end Overseer
