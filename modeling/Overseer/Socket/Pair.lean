import Overseer.Socket.Pipe

/-!
# Socket pairs

Two connected ends. What one writes the other reads; neither ever waits. Closing an end shuts both
directions, and leaves a reset for the peer if there was something the end had not read.
-/

namespace Overseer

/-- One of two ends. -/
inductive Side where
  | a
  | b
  deriving DecidableEq, Inhabited

/-- The opposite end. -/
def Side.peer : Side → Side
  | a => b
  | b => a

/-- One end of a pair. -/
structure Socket where
  /-- What the peer has written. -/
  inbox : Pipe := {}
  isOpen : Bool := true
  /-- Whether the end asks for the credentials of those who write to it. -/
  wantsCredentials : Bool := false
  deriving DecidableEq, Inhabited

/-- Two connected ends. -/
structure Pair where
  a : Socket := {}
  b : Socket := {}
  deriving DecidableEq, Inhabited

namespace Pair

/-- One end of a pair. -/
def socket (p : Pair) : Side → Socket
  | .a => p.a
  | .b => p.b

/-- Changes one end of a pair. -/
def modify (p : Pair) (side : Side) (f : Socket → Socket) : Pair :=
  match side with
  | .a => { p with a := f p.a }
  | .b => { p with b := f p.b }

/-- Writes octets and any number of descriptors at once. -/
def write (p : Pair) (side : Side) (xs : Octets) (ds : List Descriptor) :
    Except IoError Nat × Pair :=
  let credentials := p.a.wantsCredentials || p.b.wantsCredentials
  let (result, inbox) := (p.socket side.peer).inbox.send ⟨xs, ds, credentials⟩
  (result, p.modify side.peer fun s => { s with inbox })

/-- Reads at most `n` octets. -/
def read (p : Pair) (side : Side) (n : Nat) : Reading × Pair :=
  let own := p.socket side
  let (reading, inbox) := own.inbox.read own.wantsCredentials n
  (reading.getD (.failure .nothingQueued), p.modify side fun s => { s with inbox })

/-- Shuts the direction in which an end reads. -/
def shutRead (p : Pair) (side : Side) : Pair :=
  p.modify side fun s => { s with inbox := { s.inbox with shut := true } }

/-- Shuts the direction in which an end writes. -/
def shutWrite (p : Pair) (side : Side) : Pair := p.shutRead side.peer

/-- Closes an end. -/
def close (p : Pair) (side : Side) : Pair :=
  let unread := !(p.socket side).inbox.queue.isEmpty
  let p := (p.shutWrite side).shutRead side
  let p := p.modify side fun s => { s with isOpen := false }
  p.modify side.peer fun s => { s with inbox := { s.inbox with reset := s.inbox.reset || unread } }

/-- Has an end ask for credentials. -/
def askCredentials (p : Pair) (side : Side) : Pair :=
  p.modify side fun s => { s with wantsCredentials := true }

/-- An end of a pair as a transport. -/
def transport (side : Side) : Transport Pair where
  carriesDescriptors := true
  write p xs d := p.write side xs d.toList
  read p n := let (r, p) := p.read side n; (some r, p)
  inflow p := (p.socket side).inbox.size
  stalls _ := 0

@[simp] theorem socket_modify (p : Pair) (side : Side) (f : Socket → Socket) :
    (p.modify side f).socket side = f (p.socket side) := by
  cases side <;> rfl

theorem transport_lawful (side : Side) : (transport side).Lawful where
  inflow_read p n r p' h hr := by
    simp only [transport, read] at h ⊢
    obtain ⟨rfl, rfl⟩ := by simpa using h
    generalize hread :
      Pipe.read (p.socket side).wantsCredentials n (p.socket side).inbox = out at hr ⊢
    obtain ⟨r, inbox⟩ := out
    cases r with
    | none =>
      simp [Reading.continues, Reading.failure, IoError.nothingQueued, IoError.kind,
        Errno.kind] at hr
    | some r => simpa using Pipe.size_read hread hr
  write_le p xs d n p' h := by
    have hsent := congrArg Prod.fst h
    exact Pipe.send_ok (p := (p.socket side.peer).inbox) hsent
  stalls_write _ _ _ _ _ _ := Nat.le_refl _
  stalls_interrupted p xs d e p' h he := by
    have hsent := congrArg Prod.fst h
    exact absurd he (Pipe.send_error (p := (p.socket side.peer).inbox) hsent)

end Pair

end Overseer
