import Overseer.Os.IoError
import Overseer.Message

/-!
# Transports

A `Transport` is what a channel writes to and reads from. It takes octets, perhaps fewer than it is
offered, and a descriptor with the first of them; it delivers octets and the descriptors that came
with them. What it does is a function of its state, so a transport may be a script, a queue or a
whole process with its peer.

Two measures bound how long a transport can keep a caller busy: `inflow` goes down with every read
that a reader answers by reading again, and `stalls` with every write that is merely interrupted.
-/

namespace Overseer

/-- What one read delivers: descriptors, and octets or a failure. No octets at all mean the end of
the stream. -/
structure Reading where
  result : Except IoError Octets
  descriptors : List Descriptor := []

namespace Reading

/-- A read that delivers octets. -/
def data (xs : Octets) (descriptors : List Descriptor := []) : Reading := ⟨.ok xs, descriptors⟩

/-- A read that finds the end of the stream. -/
def atEnd : Reading := data []

/-- A read that fails. -/
def failure (e : IoError) : Reading := ⟨.error e, []⟩

/-- Whether a reader who wants more goes on to read again. -/
def continues (r : Reading) : Bool :=
  match r.result with
  | .ok xs => !xs.isEmpty
  | .error e => e.kind == .interrupted

end Reading

/-- A stream of octets that may carry descriptors. A read answers `none` if it would wait for ever
on what the transport has been told so far. -/
structure Transport (τ : Type) where
  /-- Whether descriptors can be carried. -/
  carriesDescriptors : Bool
  /-- Writes a front part of the octets, and says how long it was. -/
  write : τ → Octets → Option Descriptor → Except IoError Nat × τ
  /-- Reads at most so many octets. -/
  read : τ → Nat → Option Reading × τ
  /-- Bounds the reads that a reader answers by reading again. -/
  inflow : τ → Nat
  /-- Bounds the writes that are merely interrupted. -/
  stalls : τ → Nat

/-- The two measures do what they are for, and a write accepts no more than it was offered. -/
structure Transport.Lawful {τ : Type} (T : Transport τ) : Prop where
  inflow_read : ∀ t n r t', T.read t n = (some r, t') → r.continues = true →
    T.inflow t' < T.inflow t
  write_le : ∀ t xs d n t', T.write t xs d = (.ok n, t') → n ≤ xs.length
  stalls_write : ∀ t xs d n t', T.write t xs d = (.ok n, t') → T.stalls t' ≤ T.stalls t
  stalls_interrupted : ∀ t xs d e t', T.write t xs d = (.error e, t') → e.kind = .interrupted →
    T.stalls t' < T.stalls t

end Overseer
