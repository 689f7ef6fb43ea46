import Overseer.Channel.Transport

/-!
# Scripted transports

A transport that does what a script says: one entry for each read and one for each write. It keeps
what was written to it. A read entry longer than what is asked for is delivered in pieces; a script
without further reads has nothing queued, and one without further writes accepts everything.
-/

namespace Overseer

/-- How a scripted transport treats descriptors. -/
inductive Carriage where
  /-- It carries them. -/
  | full
  /-- It carries none and says so. -/
  | none
  /-- It says that it carries them, and fails to. -/
  | pretended
  deriving DecidableEq, Inhabited

/-- What one read does. -/
inductive ReadEntry where
  | data (octets : Octets) (descriptors : List Descriptor)
  | fault (error : IoError)
  deriving DecidableEq, Inhabited

/-- What one write does. -/
inductive WriteEntry where
  /-- Accepts at most so many octets. -/
  | accept (octets : Nat)
  | fault (error : IoError)
  deriving DecidableEq, Inhabited

/-- A transport with the rest of its script and what it has accepted. -/
structure Scripted where
  reads : List ReadEntry := []
  writes : List WriteEntry := []
  /-- The octets accepted so far. -/
  written : Octets := []
  /-- The descriptors transferred so far. -/
  handed : List Descriptor := []
  deriving DecidableEq, Inhabited

namespace Scripted

/-- Takes in octets and a descriptor. The descriptor is transferred if there are any octets. -/
def accept (t : Scripted) (xs : Octets) (d : Option Descriptor) : Scripted :=
  { t with
    written := t.written ++ xs
    handed := t.handed ++ if xs.isEmpty then [] else d.toList }

/-- Writes as the next entry says. A descriptor that cannot be carried uses no entry up. -/
def write (carriage : Carriage) (t : Scripted) (xs : Octets) (d : Option Descriptor) :
    Except IoError Nat × Scripted :=
  if d.isSome && carriage != .full then (.error .cannotCarry, t)
  else
    match t.writes with
    | [] => (.ok xs.length, t.accept xs d)
    | .accept n :: writes => (.ok (min n xs.length), { t.accept (xs.take n) d with writes })
    | .fault e :: writes => (.error e, { t with writes })

/-- Reads as the next entry says. What is left of it stays in front. -/
def read (carriage : Carriage) (t : Scripted) (n : Nat) : Reading × Scripted :=
  match t.reads with
  | [] => (.failure (.plain .wouldBlock), t)
  | .fault e :: reads => (.failure e, { t with reads })
  | .data xs ds :: reads =>
    let rest := xs.drop n
    (.data (xs.take n) (if carriage = .full then ds else []),
      { t with reads := if rest.isEmpty then reads else .data rest [] :: reads })

/-- Bounds the reads of an entry. -/
def weight : ReadEntry → Nat
  | .data xs _ => xs.length + 1
  | .fault _ => 1

/-- The transport that follows the script. -/
def transport (carriage : Carriage) : Transport Scripted where
  carriesDescriptors := carriage != .none
  write := write carriage
  read t n := let (r, t) := read carriage t n; (some r, t)
  inflow t := total weight t.reads
  stalls t := t.writes.length

theorem transport_lawful (carriage : Carriage) : (transport carriage).Lawful where
  inflow_read t n r t' h hr := by
    simp only [transport, read] at h ⊢
    split at h
    · obtain ⟨rfl, rfl⟩ := by simpa using h
      simp [Reading.continues, Reading.failure, IoError.kind] at hr
    · next e reads hreads =>
      obtain ⟨rfl, rfl⟩ := by simpa using h
      simp [hreads, weight]
    · next xs ds reads hreads =>
      obtain ⟨rfl, rfl⟩ := by simpa using h
      have hn : xs.take n ≠ [] := by simpa [Reading.continues, Reading.data] using hr
      have : 0 < (xs.take n).length := List.length_pos_iff.mpr hn
      simp only [List.length_take] at this
      split <;> simp [hreads, weight]
      omega
  write_le t xs d n t' h := by
    simp only [transport, write] at h
    split at h
    · simp at h
    · split at h <;> simp at h <;> omega
  stalls_write t xs d n t' h := by
    simp only [transport, write] at h ⊢
    split at h
    · simp at h
    · split at h
      · next hw =>
        obtain ⟨-, rfl⟩ := by simpa using h
        simp [accept]
      · next hw =>
        obtain ⟨-, rfl⟩ := by simpa using h
        simp [hw]
      · simp at h
  stalls_interrupted t xs d e t' h he := by
    simp only [transport, write] at h ⊢
    split at h
    · obtain ⟨rfl, rfl⟩ := by simpa using h
      simp [IoError.kind, IoError.cannotCarry] at he
    · split at h
      · simp at h
      · simp at h
      · next hw =>
        obtain ⟨-, rfl⟩ := by simpa using h
        simp [hw]

end Scripted

end Overseer
