import Overseer.Proofs.Channel.Sending

/-!
# Two ends at once

A `Link` is one direction between a sender and a reader. What is in flight is a `Stream`; how much a
write is taken of, how much a read brings, and where either is interrupted is up to two scripts, and
past their ends everything is taken and everything is brought.

A `Session` is a link with its reader, who makes one call after the other and repeats a call until
it is through. The session is the sender's transport: in front of each write the reader is given
turns, as many as a schedule says, and a `pause` in the script of the reads ends a turn at any read.
So a run of the sender's calls on a session is an interleaving of single writes with single reads. A
call that a pause or an empty link cuts short goes on where it stood when it is made again, for all
that it has read is in its channel.
-/

namespace Overseer

/-! ## Links -/

/-- An error by which a read or a write is merely interrupted. -/
abbrev Interruption := { e : IoError // e.kind = .interrupted }

/-- What one read does. -/
inductive ReadTurn where
  /-- Brings at most one octet and so many more. -/
  | take (more : Nat)
  /-- Is interrupted. -/
  | interrupt (cause : Interruption)
  /-- Comes later: it is somebody else's turn. -/
  | pause

/-- What one write does. -/
inductive WriteTurn where
  /-- Takes at most one octet and so many more. -/
  | take (more : Nat)
  /-- Is interrupted. -/
  | interrupt (cause : Interruption)

/-- One direction between a sender and a reader. -/
structure Link where
  /-- What has been taken from the sender and not been brought to the reader. -/
  queue : Stream := []
  /-- Whether the sender has closed its end. -/
  closed : Bool := false
  reads : List ReadTurn := []
  writes : List WriteTurn := []

namespace Link

/-- Brings at most `n` octets. An empty queue is the end if the sender has closed its end. -/
def deliver (l : Link) (n : Nat) : Option Reading × Link :=
  if l.queue.isEmpty then (if l.closed then some .atEnd else none, l)
  else
    let piece : Stream := l.queue.take n
    (some (.data piece.octets piece.descriptors), { l with queue := l.queue.drop n })

/-- Reads as the script says. -/
def read (l : Link) (n : Nat) : Option Reading × Link :=
  match l.reads with
  | [] => l.deliver n
  | .take more :: reads => { l with reads }.deliver (min n (more + 1))
  | .interrupt cause :: reads => (some (.failure cause.1), { l with reads })
  | .pause :: reads => (none, { l with reads })

/-- Writes as the script says. The descriptor goes with the first octet that is taken. -/
def write (l : Link) (xs : Octets) (d : Option Descriptor) : Except IoError Nat × Link :=
  match l.writes with
  | [] => (.ok xs.length, { l with queue := l.queue ++ Stream.tagged xs d })
  | .take more :: writes =>
    (.ok (min (more + 1) xs.length),
      { l with queue := l.queue ++ Stream.tagged (xs.take (more + 1)) d, writes })
  | .interrupt cause :: writes => (.error cause.1, { l with writes })

/-- The link when the sender has closed its end. -/
def close (l : Link) : Link := { l with closed := true }

/-- The number of reads that bring nothing and are not the end. -/
def delays (l : Link) : Nat :=
  l.reads.countP fun
    | .take _ => false
    | .interrupt _ | .pause => true

/-- A link as the transport of its reader. -/
def transport : Transport Link where
  carriesDescriptors := true
  write := write
  read := read
  inflow l := l.queue.length + l.reads.length
  stalls l := l.writes.length

/-- A delivery that one goes on from takes octets off the queue. -/
theorem length_deliver {l l' : Link} {n : Nat} {r : Reading} (h : l.deliver n = (some r, l'))
    (hr : r.continues = true) : l'.queue.length < l.queue.length ∧ l'.reads = l.reads := by
  unfold deliver at h
  split at h
  · split at h <;> cases h
    cases hr
  · next hempty =>
    cases h
    refine ⟨?_, rfl⟩
    have hn : n ≠ 0 := by
      rintro rfl
      cases hr
    have hpos : l.queue.length ≠ 0 := fun h => hempty (by rw [List.length_eq_zero_iff.1 h]; rfl)
    rw [List.length_drop]
    omega

/-- A link keeps what a transport promises. -/
theorem transport_lawful : transport.Lawful where
  inflow_read l n r l' h hr := by
    simp only [transport, read] at h ⊢
    split at h
    · next hreads =>
      obtain ⟨hlt, heq⟩ := length_deliver h hr
      rw [heq]
      omega
    · next more reads hreads =>
      obtain ⟨hlt, heq⟩ := length_deliver h hr
      rw [heq, hreads, List.length_cons]
      exact Nat.add_lt_add hlt (Nat.lt_succ_self _)
    · next cause reads hreads =>
      cases h
      rw [hreads, List.length_cons]
      exact Nat.lt_succ_self _
    · cases h
  write_le l xs d n l' h := by
    simp only [transport, write] at h
    split at h <;> cases h
    · exact Nat.le_refl _
    · exact Nat.min_le_right ..
  stalls_write l xs d n l' h := by
    simp only [transport, write] at h ⊢
    split at h
    · cases h
      exact Nat.le_refl _
    · next hwrites =>
      cases h
      rw [hwrites]
      exact Nat.le_succ _
    · cases h
  stalls_interrupted l xs d e l' h _ := by
    simp only [transport, write] at h ⊢
    split at h
    · cases h
    · cases h
    · next hwrites =>
      cases h
      rw [hwrites]
      exact Nat.lt_succ_self _

end Link

/-! ## Sessions -/

/-- A link, its reader, and what the reader does. -/
structure Session where
  link : Link
  reader : Channel
  /-- The calls that the reader still makes. -/
  asks : List Ask
  /-- The turns that the reader is given in front of each of the sender's writes. -/
  schedule : List Nat := []
  /-- What the reader's calls have come to. -/
  log : List (Reception Item) := []

namespace Session

/-- Gives the reader a turn. It makes its next call as far as the link lets it; a call that waits or
that a read fails is made again at the next turn. -/
def turn (s : Session) : Session :=
  match s.asks with
  | [] => s
  | ask :: asks =>
    let (r, reader, link) := Channel.call Link.transport ask s.reader s.link
    if r.completed then { s with link, reader, asks, log := s.log ++ [r] }
    else { s with link, reader }

/-- Gives the reader so many turns. -/
def turns : Nat → Session → Session
  | 0, s => s
  | n + 1, s => turns n s.turn

/-- What the reader does in front of a write. -/
def interlude (s : Session) : Session :=
  turns (s.schedule.headD 0) { s with schedule := s.schedule.tail }

/-- A session as the transport of the sender. -/
def transport : Transport Session where
  carriesDescriptors := true
  write s xs d :=
    let s := s.interlude
    let (result, link) := s.link.write xs d
    (result, { s with link })
  read s _ := (none, s)
  inflow _ := 0
  stalls s := s.link.writes.length

/-- Sends one item after the other. -/
def sendAll (c : Channel) : List Item → Session → List (Except ChannelError Unit) × Session
  | [], s => ([], s)
  | item :: items, s =>
    let (result, s) := Channel.put transport c item s
    let (results, s) := sendAll c items s
    (result :: results, s)

/-- The session when the sender has closed its end. -/
def close (s : Session) : Session := { s with link := s.link.close }

end Session

end Overseer
