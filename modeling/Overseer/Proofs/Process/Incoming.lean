import Overseer.Proofs.Channel.Place
import Overseer.Proofs.Process.Supply

/-!
# What the peer of a process writes

The stream that comes in to a process is what lies in its inbox and what its peer writes until it
finishes or leaves (`Process.incoming`). Its reads bring that stream, as far as they bring anything
(`Process.answers_read`): how it is cut, which reads are interrupted, and what signals do in between
plays no part. They break off when the peer has attached more descriptors to an octet than a reader
has room for, or when nothing more happens to the process (`Process.Idles`).

That takes an inbox in order (`Process.Orderly`): what shuts it is the peer, and not a request to
quit. Then whatever a process does but reading leaves the incoming stream as it is
(`Process.Unread`).
-/

namespace Overseer

/-! ## Segments as a stream -/

namespace Segment

/-- What was written at once, as a stream: all descriptors go with the first octet. -/
def spread (s : Segment) : Stream :=
  match s.octets with
  | [] => []
  | x :: xs => (x, s.descriptors) :: xs.map fun x => (x, [])

/-- What was written one after the other. -/
def content (segments : List Segment) : Stream := segments.flatMap spread

@[simp] theorem content_cons (s : Segment) (segments : List Segment) :
    content (s :: segments) = s.spread ++ content segments := rfl

/-- A piece of a stream has some octets, and its descriptors are attached to one of them. -/
structure Piece (piece : Stream) (xs : Octets) (ds : List Descriptor) : Prop where
  octets_eq : piece.octets = xs
  descriptors_eq : piece.descriptors = ds
  one : ds = [] ∨ ∃ x ∈ piece, x.2 = ds

theorem piece_nil : Piece [] [] [] := ⟨rfl, rfl, .inl rfl⟩

/-- Octets of which the first has the descriptors. -/
theorem piece_cons (x : UInt8) (xs : Octets) (ds : List Descriptor) :
    Piece ((x, ds) :: xs.map fun x => (x, [])) (x :: xs) ds := by
  refine ⟨?_, ?_, .inr ⟨_, List.mem_cons_self, rfl⟩⟩
  · simp [Stream.octets, Function.comp_def]
  · rw [Stream.descriptors, List.flatMap_cons, List.flatMap_map]
    simp

/-- Octets that carry nothing may come in front. -/
theorem Piece.after {piece piece' : Stream} {xs xs' : Octets} {ds : List Descriptor}
    (h : Piece piece xs []) (h' : Piece piece' xs' ds) :
    Piece (piece ++ piece') (xs ++ xs') ds := by
  refine ⟨?_, ?_, h'.one.imp_right fun ⟨x, hx, hds⟩ => ⟨x, List.mem_append_right _ hx, hds⟩⟩
  · rw [Stream.octets_append, h.octets_eq, h'.octets_eq]
  · rw [Stream.descriptors_append, h.descriptors_eq, h'.descriptors_eq, List.nil_append]

/-- A part of a segment that was read, and what is left of it. -/
theorem spread_cut {s : Segment} {n : Nat} (hn : n ≠ 0) (hs : s.octets ≠ []) :
    ∃ piece, s.spread = piece ++ spread { s with octets := s.octets.drop n, descriptors := [] } ∧
      Piece piece (s.octets.take n) s.descriptors := by
  have hbare (xs : Octets) : spread { s with octets := xs, descriptors := [] } =
      xs.map fun x => (x, []) := by
    cases xs <;> rfl
  obtain ⟨x, xs, hx⟩ := List.exists_cons_of_ne_nil hs
  obtain ⟨n, rfl⟩ := Nat.exists_eq_succ_of_ne_zero hn
  refine ⟨_, ?_, by rw [hx]; exact piece_cons x (xs.take n) s.descriptors⟩
  rw [hbare, spread, hx, List.drop_succ_cons, List.cons_append, ← List.map_append,
    List.take_append_drop]

/-- A segment that was read to its end. -/
theorem piece_spread {s : Segment} (hs : s.octets ≠ []) :
    Piece s.spread s.octets s.descriptors := by
  obtain ⟨x, xs, hx⟩ := List.exists_cons_of_ne_nil hs
  rw [spread, hx]
  exact piece_cons x xs s.descriptors

end Segment

namespace Pipe

/-- **What is gathered is a front part of what is queued**, and the rest stays queued. -/
theorem gather_spread {queue : List Segment} (h : ∀ s ∈ queue, s.octets ≠ []) (n : Nat)
    (c : Option Bool) :
    ∃ piece, Segment.content queue = piece ++ Segment.content (gather false n c queue).2.2 ∧
      Segment.Piece piece (gather false n c queue).1 (gather false n c queue).2.1 := by
  induction queue generalizing n c with
  | nil => exact ⟨[], rfl, Segment.piece_nil⟩
  | cons s queue ih =>
    have hs := h s List.mem_cons_self
    have hwhole := Segment.piece_spread hs
    simp only [gather, Bool.false_eq_true, false_and, or_false, Segment.content_cons]
    split
    · exact ⟨[], rfl, Segment.piece_nil⟩
    · next hn =>
      split
      · obtain ⟨piece, hcut, hpiece⟩ := Segment.spread_cut hn hs
        refine ⟨piece, ?_, hpiece⟩
        rw [hcut, List.append_assoc]
        rfl
      · split
        · exact ⟨s.spread, rfl, hwhole⟩
        · next hbare =>
          -- a segment that carries nothing is read together with the next one
          obtain ⟨piece, hcut, hpiece⟩ := ih (fun s hs => h s (List.mem_cons_of_mem _ hs))
            (n - s.octets.length) (some s.credentials)
          have hnone : s.descriptors = [] := by simpa using hbare
          rw [hnone] at hwhole
          exact ⟨s.spread ++ piece, by rw [hcut, List.append_assoc], hwhole.after hpiece⟩

end Pipe

/-! ## The incoming stream -/

/-- What the peer writes until it finishes or leaves. -/
def Stimulus.written : List Stimulus → List Segment
  | [] | .finish :: _ | .hangUp _ :: _ => []
  | .arrive segment :: coming => Pipe.admitted segment ++ written coming
  | .signal _ :: coming => written coming

namespace Process

/-- What a process can still read, if nothing shuts its inbox but its peer. -/
def ahead (p : Process) : List Segment :=
  p.inbox.queue ++ if p.inbox.shut then [] else Stimulus.written p.coming

/-- The stream that comes in. -/
def incoming (p : Process) : Stream := Segment.content p.ahead

/-- Nothing empty is queued, a peer that is gone writes no more, and the inbox is not what is shut
when the process is asked to quit. -/
structure Orderly (p : Process) : Prop where
  tidy : p.inbox.Tidy
  shut_of_reset : p.inbox.reset = true → p.inbox.shut = true
  apart : p.signals.wakeup ≠ some p.socket

variable {p p' p'' : Process} {n : Nat} {r : Reading}

/-- A read tells at most of a peer that is gone, and makes none be gone. -/
theorem reset_of_read {inbox inbox' : Pipe} {r : Option Reading}
    (h : inbox.read false n = (r, inbox')) (hreset : inbox'.reset = true) :
    inbox.reset = true := by
  unfold Pipe.read at h
  split at h
  · split at h
    · assumption
    · split at h <;> cases h <;> exact hreset
  · cases h
    exact hreset

/-- **An inbox that is in order stays so**, whatever happens to the process. -/
theorem Course.orderly {notes : List Note} (h : Course p notes p') (horderly : p.Orderly) :
    p'.Orderly := by
  refine ⟨h.tidy horderly.tidy, ?_, ?_⟩
  · have hreset := horderly.shut_of_reset
    clear horderly
    have hsame {p p' : Process} (h : p.SameInput p')
        (hreset : p.inbox.reset = true → p.inbox.shut = true) (h' : p'.inbox.reset = true) :
        p'.inbox.shut = true :=
      h.shut (hreset (h.reset_eq ▸ h'))
    induction h with
    | own h => rwa [h.inbox_eq]
    | collect => exact hreset
    | act signal => exact hsame (sameInput_act _ signal) hreset
    | request p signal => exact hsame (sameInput_requestQuit p signal) hreset
    | @outside p stimulus _ _ hs =>
      cases stimulus with
      | arrive segment =>
        show (p.inbox.send segment).2.reset = true → (p.inbox.send segment).2.shut = true
        cases hshut : p.inbox.shut with
        | true =>
          rw [Pipe.send_shut hshut]
          exact fun _ => hshut
        | false =>
          rw [Pipe.send_open hshut]
          exact hreset
      | finish | hangUp => exact fun _ => rfl
      | signal signal => exact absurd rfl (hs signal)
    | read hread => exact fun h' => shut_of_read hread ▸ hreset (reset_of_read hread h')
    | trans _ _ ih ih' => exact ih' (ih hreset)
  · rw [h.wakeup_eq, h.socket_eq]
    exact horderly.apart

/-- Nothing was read: the same comes in as before, and the inbox is in order. -/
structure Unread (p p' : Process) : Prop where
  orderly : p'.Orderly
  incoming_eq : p'.incoming = p.incoming
  inflow_le : p'.inflow ≤ p.inflow

theorem Orderly.unread (h : p.Orderly) : p.Unread p := ⟨h, rfl, Nat.le_refl _⟩

theorem Unread.trans (h : p.Unread p') (h' : p'.Unread p'') : p.Unread p'' :=
  ⟨h'.orderly, h'.incoming_eq.trans h.incoming_eq, Nat.le_trans h'.inflow_le h.inflow_le⟩

/-- A process whose input is as it was. -/
theorem Orderly.unread_of_eq (h : p.Orderly) (hinbox : p'.inbox = p.inbox)
    (hcoming : p'.coming = p.coming) (hapart : p'.signals.wakeup ≠ some p'.socket) :
    p.Unread p' := by
  refine ⟨⟨hinbox ▸ h.tidy, hinbox ▸ h.shut_of_reset, hapart⟩, ?_, Nat.le_of_eq ?_⟩
  · rw [incoming, ahead, hinbox, hcoming]
    rfl
  · rw [inflow, inflow, hinbox, hcoming]

/-- What signals do and requests to quit leaves an inbox alone that is in order. -/
theorem Orderly.unread_of_sameInput (h : p.Orderly) (hsame : p.SameInput p') : p.Unread p' := by
  have hshut : p'.inbox.shut = p.inbox.shut := by
    rw [Bool.eq_iff_iff]
    exact ⟨fun hshut => (hsame.shut_of hshut).resolve_right h.apart, hsame.shut⟩
  have hinbox : p'.inbox = p.inbox := by
    have hqueue := hsame.queue_eq
    have hreset := hsame.reset_eq
    generalize p'.inbox = inbox at hshut hqueue hreset
    obtain ⟨queue, shut, reset⟩ := inbox
    cases hshut
    cases hqueue
    cases hreset
    rfl
  refine h.unread_of_eq hinbox hsame.coming_eq ?_
  rw [hsame.wakeup_eq, hsame.socket_eq]
  exact h.apart

/-- **What comes from outside belongs to the incoming stream.** -/
theorem Orderly.unread_meet (h : p.Orderly) {stimulus : Stimulus} {coming : List Stimulus}
    (hcoming : p.coming = stimulus :: coming) : p.Unread { (p.meet stimulus).2 with coming } := by
  obtain ⟨notes, hcourse⟩ := Course.meet hcoming
  refine ⟨hcourse.orderly h, ?_, hcourse.inflow_le⟩
  cases stimulus with
  | arrive segment =>
    show Segment.content _ = Segment.content _
    cases hshut : p.inbox.shut with
    | true => simp only [ahead, meet, Pipe.send_shut hshut, hshut, if_true]
    | false =>
      simp only [ahead, meet, Pipe.send_open hshut, hshut, hcoming, Stimulus.written,
        List.append_assoc, Bool.false_eq_true, if_false]
  | finish | hangUp =>
    show Segment.content (p.inbox.queue ++ []) = Segment.content p.ahead
    rw [ahead, hcoming, Stimulus.written, ite_self]
  | signal signal =>
    have hsame := h.unread_of_sameInput (sameInput_deliver p signal)
    have hahead : (p.deliver signal).2.ahead = (p.deliver signal).2.inbox.queue ++
        if (p.deliver signal).2.inbox.shut then [] else Stimulus.written coming := by
      rw [ahead, (deliver_keeps p signal).2, hcoming, Stimulus.written]
    rw [← hsame.incoming_eq]
    exact congrArg Segment.content hahead.symm

/-- Waiting for something that is not to be read reads nothing. -/
theorem Orderly.unread_await (h : p.Orderly) {β : Type}
    {goesOn : Bool → Process → Option (β × Process)}
    (hgo : ∀ ran p b p', goesOn ran p = some (b, p') → p' = p) :
    p.Unread (await goesOn p.coming p).2 := by
  obtain ⟨p', hunread, ⟨hrun, -⟩ | ⟨ran, b, p'', hsome, hrun⟩⟩ := await_keeps (P := p.Unread)
    (fun hunread hcoming => hunread.trans (hunread.orderly.unread_meet hcoming)) goesOn rfl h.unread
  · rwa [hrun]
  · rw [hrun, hgo _ _ _ _ hsome]
    exact hunread

theorem Orderly.unread_resume (h : p.Orderly) : p.Unread p.resume := by
  unfold resume
  split
  · exact h.unread
  · refine h.unread_await fun ran p b p' hgo => ?_
    cases hgo
    rfl

theorem Orderly.unread_awaitQuit (h : p.Orderly) : p.Unread p.awaitQuit := by
  unfold awaitQuit
  split
  · exact h.unread
  · refine h.unread_await fun ran p b p' hgo => ?_
    split at hgo <;> cases hgo
    rfl

/-! ## What a read brings of it -/

/-- The peer has attached more descriptors to an octet than a reader has room for. -/
def Overladen (s : Stream) : Prop := ∃ x ∈ s, Pipe.maxReceived < x.2.length

/-- Nothing more happens to a process that runs, and its peer has written all of the stream and not
finished it. -/
def Idles (p : Process) (s : Stream) : Prop :=
  p.status = .running → s = [] ∧ p.coming = [] ∧ p.inbox.shut = false

/-- The stream comes in, and the inbox is in order. -/
def Receives (p : Process) (s : Stream) : Prop := p.Orderly ∧ p.incoming = s

/-- What a read answers to a process to which a stream comes in. -/
abbrev Answers (s : Stream) (out : Option Reading × Process) : Prop :=
  Transport.Answers Receives (fun e s _ => e = .descriptorsLost ∧ Overladen s)
    (fun s p => p.Idles s) s out

/-- A read that does not wait takes a front part of what is queued. -/
theorem Orderly.answers_readNow (h : p.Orderly) (hn : n ≠ 0) (hread : p.readNow n = some (r, p')) :
    Answers p.incoming (some r, p') := by
  unfold readNow Pipe.read at hread
  cases hqueue : p.inbox.queue with
  | nil =>
    -- only the end is left to be told
    have hover (hshut : p.inbox.shut = true) : p.incoming = [] := by
      rw [incoming, ahead, hqueue, hshut]
      rfl
    simp only [hqueue] at hread
    cases hreset : p.inbox.reset with
    | true =>
      rw [hreset] at hread
      cases hread
      exact .reset rfl (hover (h.shut_of_reset hreset))
    | false =>
      cases hshut : p.inbox.shut with
      | true =>
        simp only [hreset, hshut] at hread
        cases hread
        exact .atEnd (hover hshut)
      | false => simp [hreset, hshut] at hread
  | cons segment queue =>
    simp only [hqueue] at hread
    have htidy : ∀ s ∈ segment :: queue, s.octets ≠ [] := hqueue ▸ h.tidy
    obtain ⟨piece, hcut, hpiece⟩ := Pipe.gather_spread htidy n none
    have hne : (Pipe.gather false n none (segment :: queue)).1 ≠ [] :=
      Pipe.gather_ne_nil hn (htidy _ List.mem_cons_self)
    have hrest := Pipe.ne_nil_of_mem_gather (w := false) (n := n) (c := none) htidy
    generalize Pipe.gather false n none (segment :: queue) = out at *
    obtain ⟨xs, ds, rest⟩ := out
    obtain ⟨rfl, rfl, hone⟩ := hpiece
    cases hread
    have hincoming : p.incoming =
        piece ++ incoming { p with inbox := { p.inbox with queue := rest } } := by
      simp only [incoming, ahead, Segment.content, List.flatMap_append, hqueue] at hcut ⊢
      rw [hcut, List.append_assoc]
    show Answers _ (some (if piece.descriptors.length ≤ Pipe.maxReceived
      then Reading.data piece.octets piece.descriptors
      else ⟨.error .descriptorsLost, piece.descriptors.take Pipe.maxReceived⟩), _)
    split
    · exact .piece (fun hnil => hne (by rw [hnil]; rfl)) hincoming
        ⟨⟨hrest, h.shut_of_reset, h.apart⟩, rfl⟩
    · next hmany =>
      obtain hnone | ⟨x, hx, hds⟩ := hone
      · have hfew : piece.descriptors.length = 0 := congrArg List.length hnone
        omega
      · refine .broken rfl (by decide) (by decide) ⟨rfl, x, ?_, hds ▸ Nat.lt_of_not_le hmany⟩
        rw [hincoming]
        exact List.mem_append_left _ hx

/-- A process that has nothing to read has nothing that is queued, and its inbox is open. -/
theorem readNow_eq_none (h : p.readNow n = none) :
    p.inbox.queue = [] ∧ p.inbox.shut = false := by
  unfold readNow Pipe.read at h
  cases hqueue : p.inbox.queue with
  | nil =>
    simp only [hqueue] at h
    refine ⟨rfl, Bool.eq_false_iff.2 fun hshut => ?_⟩
    cases hreset : p.inbox.reset <;> simp [hreset, hshut] at h
  | cons segment queue => simp [hqueue] at h

/-- **A read brings a piece of the incoming stream**, whatever happens to the process meanwhile. -/
theorem Orderly.answers_read (h : p.Orderly) (hn : n ≠ 0) : Answers p.incoming (p.read n) := by
  have hstart := h.unread_of_sameInput (sameInput_preempt p)
  rw [read_eq, ← hstart.incoming_eq]
  generalize p.preempt = q at hstart
  have hawait (hidle : q.status = .running → q.readNow n = none) :
      Answers q.incoming (await (readAgain n) q.coming q) := by
    obtain ⟨q', hunread, ⟨hrun, hvain⟩ | ⟨ran, b, q'', hsome, hrun⟩⟩ := await_keeps (P := q.Unread)
      (fun hunread hcoming => hunread.trans (hunread.orderly.unread_meet hcoming)) (readAgain n)
      rfl hstart.orderly.unread
    · rw [hrun]
      refine .dry fun hrunning => ?_
      obtain ⟨hcoming, hlast⟩ := hvain hrunning
      have hnone : q'.readNow n = none := by
        obtain rfl | ⟨ran, hran⟩ := hlast
        · exact hidle hrunning
        · cases ran with
          | true => cases hran
          | false => exact hran
      obtain ⟨hqueue, hshut⟩ := readNow_eq_none hnone
      refine ⟨?_, hcoming, hshut⟩
      rw [← hunread.incoming_eq, incoming, ahead, hqueue, hshut, hcoming]
      rfl
    · rw [hrun, ← hunread.incoming_eq]
      cases ran with
      | true =>
        cases hsome
        exact .interrupted rfl ⟨hunread.orderly, rfl⟩
      | false => exact hunread.orderly.answers_readNow hn hsome
  unfold readOn
  split
  · next hended =>
    refine .dry fun hrun => ?_
    cases hended.symm.trans hrun
  · next hsuspended =>
    refine hawait fun hrun => ?_
    cases hsuspended.symm.trans hrun
  · split
    · next hnow => exact hstart.orderly.answers_readNow hn hnow
    · next hnone => exact hawait fun _ => hnone

/-- What is known of the reads of a process: they bring what its peer writes. -/
def account : transport.Account where
  comes := Receives
  fails e s _ := e = .descriptorsLost ∧ Overladen s
  waits s p := p.Idles s
  answers h := h.2 ▸ h.1.answers_read (by decide)

end Process

end Overseer
