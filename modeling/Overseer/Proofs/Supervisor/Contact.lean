import Overseer.Proofs.Supervisor.Operation

/-!
# A record of what a host does to its children

A host has two ways to reach a child past its line: it looks whether the child is gone, and it sends
it a signal. `Host.traced` is a host that keeps a record of these `Contact`s, each with what came of
it, and does everything else as the host that it is made from. Nothing that goes over a line is a
contact (`Transport.Keeps`).
-/

namespace Overseer

/-- One contact of a host with a child. -/
inductive Contact where
  /-- The host looked whether the child was gone. -/
  | look (pid : Pid) (gone : Bool)
  /-- The host sent the child a signal, and the child was there to be sent one or not. -/
  | signal (pid : Pid) (signal : Signal) (there : Bool)
  deriving DecidableEq

/-- The child of a contact. -/
def Contact.pid : Contact → Pid
  | look pid _ => pid
  | signal pid _ _ => pid

/-- The state of a host with the record of its contacts, oldest first. -/
structure Traced (η : Type) where
  host : η
  trace : List Contact := []

namespace Traced

variable {η α : Type}

/-- Has the host do something that is no contact. -/
def lift (f : η → α × η) (t : Traced η) : α × Traced η :=
  ((f t.host).1, { t with host := (f t.host).2 })

/-- Has the host make a contact, and puts it on record. -/
def contact (f : η → Bool × η) (record : Bool → Contact) (t : Traced η) : Bool × Traced η :=
  ((f t.host).1, ⟨(f t.host).2, t.trace ++ [record (f t.host).1]⟩)

end Traced

/-- A transport on a host with a record. -/
def Transport.traced {η : Type} (T : Transport η) : Transport (Traced η) where
  carriesDescriptors := T.carriesDescriptors
  write t xs d := t.lift fun h => T.write h xs d
  read t n := t.lift fun h => T.read h n
  inflow t := T.inflow t.host
  stalls t := T.stalls t.host

/-- A host that keeps a record of its contacts. -/
def Host.traced {η : Type} (H : Host η) : Host (Traced η) where
  now t := H.now t.host
  sleep d t := { t with host := H.sleep d t.host }
  openLine t := t.lift H.openLine
  dropLine line t := { t with host := H.dropLine line t.host }
  fork line program t := t.lift (H.fork line program)
  transport line := (H.transport line).traced
  closeLine line t := { t with host := H.closeLine line t.host }
  reap pid t := t.contact (H.reap pid) (.look pid)
  kill pid signal t := t.contact (H.kill pid signal) (.signal pid signal)

/-! ## What a line leaves alone -/

/-- Neither a write nor a read changes what is seen of a transport's state in some view. -/
structure Transport.Keeps {τ β : Type} (T : Transport τ) (view : τ → β) : Prop where
  write (t : τ) (xs : Octets) (d : Option Descriptor) : view (T.write t xs d).2 = view t
  read (t : τ) (n : Nat) : view (T.read t n).2 = view t

theorem Transport.traced_keeps {η : Type} (T : Transport η) : T.traced.Keeps Traced.trace :=
  ⟨fun _ _ _ => rfl, fun _ _ => rfl⟩

section
variable {τ β : Type} {T : Transport τ} {view : τ → β} (hT : T.Keeps view)
include hT

theorem Channel.writeWithin_keeps (writes : Nat) (xs : Octets) (d : Option Descriptor) (t : τ) :
    view (writeWithin T writes xs d t).2 = view t := by
  induction writes generalizing xs d t with
  | zero => rfl
  | succ writes ih =>
    have hwrite := hT.write t xs d
    rw [writeWithin]
    split
    · rfl
    · split
      · next t' hw =>
        rw [hw] at hwrite
        exact hwrite
      · next n t' _ hw =>
        rw [hw] at hwrite
        exact (ih _ _ t').trans hwrite
      · next e t' hw =>
        rw [hw] at hwrite
        split
        · exact (ih _ _ t').trans hwrite
        · exact hwrite

theorem Channel.send_keeps (c : Channel) (m : Message) (t : τ) :
    view (c.send T m t).2 = view t := by
  rw [send]
  split
  · rfl
  · exact writeWithin_keeps hT _ _ _ t

theorem Channel.nextFrameWithin_keeps (reads : Nat) (c : Channel) (t : τ) :
    view (nextFrameWithin T reads c t).2.2 = view t := by
  induction reads generalizing c t with
  | zero => rfl
  | succ reads ih =>
    have hread := hT.read t chunkSize
    rw [nextFrameWithin]
    split
    · rfl
    · split
      · next t' hr =>
        rw [hr] at hread
        exact hread
      · next r t' hr =>
        rw [hr] at hread
        split
        · exact hread
        · exact (ih _ t').trans hread

theorem Channel.receive_keeps (c : Channel) (t : τ) : view (c.receive T t).2.2 = view t := by
  have hnext : view (c.nextFrame T t).2.2 = view t := nextFrameWithin_keeps hT _ c t
  rw [receive]
  split <;> next h => rw [h] at hnext; exact hnext

theorem Supervisor.ask_keeps (m : Message) (c : Channel) (t : τ) :
    view (ask m T c t).2.2 = view t := by
  have hsend := Channel.send_keeps hT c m t
  rw [ask]
  split
  · next e t' h =>
    rw [h] at hsend
    exact hsend
  · next t' h =>
    rw [h] at hsend
    exact (Channel.receive_keeps hT c t').trans hsend

end

end Overseer
