import Overseer.Proofs.Channel.Delivery

/-!
# Calls on a transport that carries a stream

A transport carries a stream if its reads bring the stream piece by piece and wait only when nothing
of it is left (`Transport.Carries`). What is on its way in a state is up to a relation, so a
transport that does more than carry, and makes up its stream while it is read, is covered too.

On such a transport a call ends with the next item, or it waits, having read all there is and found
no whole item in it (`Channel.nextFrame_obtains`). The number of reads that a call is allowed plays
no part, for each of them leaves less to flow in.
-/

namespace Overseer

variable {τ : Type} {T : Transport τ} {R : τ → Stream → Prop} {interrupts : Bool}

namespace Transport

/-- What a read comes to where a stream is on its way. -/
inductive Yields (T : Transport τ) (R : τ → Stream → Prop) (interrupts : Bool) (t : τ)
    (s : Stream) : Option Reading × τ → Prop
  /-- It brings the front part. -/
  | brings {front back : Stream} {t' : τ} (hne : front ≠ []) (hs : s = front ++ back)
      (hR : R t' back) (hlt : T.inflow t' < T.inflow t) :
      Yields T R interrupts t s (some (.data front.octets front.descriptors), t')
  /-- Nothing is on its way. -/
  | dry {t' : τ} (hs : s = []) (hR : R t' []) : Yields T R interrupts t s (none, t')
  /-- It is interrupted. -/
  | interrupted {e : IoError} {t' : τ} (hi : interrupts = true) (he : e.kind = .interrupted)
      (hR : R t' s) (hlt : T.inflow t' < T.inflow t) :
      Yields T R interrupts t s (some (.failure e), t')

/-- The reads of a transport bring what `R` says to be on its way. They may be interrupted or
not. -/
def Carries (T : Transport τ) (R : τ → Stream → Prop) (interrupts : Bool) : Prop :=
  ∀ t s, R t s → T.Yields R interrupts t s (T.read t Channel.chunkSize)

end Transport

namespace Channel

variable {limit : Nat} {unwritten s : Stream} {items : List Item} {item : Item} {rest : List Item}
  {c : Channel} {l : Link} {t : τ}

/-- The octets that are held, in flight and unwritten are those of the items. -/
theorem Holds.length_eq (h : Holds limit c l unwritten items) :
    c.buffer.length + l.queue.length + unwritten.length = (items.flatMap Item.stream).length := by
  obtain ⟨held, hbuffer, -, hparts⟩ := h.parts
  rw [← hparts, ← hbuffer, Stream.length_octets, List.length_append, List.length_append,
    Nat.add_assoc]

/-- A channel without an answer does not hold all of the first item. -/
theorem Holds.length_lt_of_none (h : Holds limit c l unwritten (item :: rest))
    (hnone : c.settled? = none) : c.buffer.length < item.stream.length := by
  refine Nat.lt_of_not_le fun hle => ?_
  obtain ⟨held, hbuffer, hdescriptors, hparts⟩ := h.parts
  rw [← hbuffer, Stream.length_octets] at hle
  rw [List.flatMap_cons] at hparts
  obtain ⟨more, rfl⟩ : item.stream <+: held :=
    List.prefix_of_prefix_length_le (List.prefix_append ..) ⟨_, hparts⟩ hle
  rw [List.append_assoc, List.append_cancel_left_eq] at hparts
  obtain ⟨_, -, hsettled⟩ := h.settled_of_complete more hbuffer hdescriptors hparts
  rw [hnone] at hsettled
  cases hsettled

/-- No call changes whether the channel reports an interruption. -/
theorem interruptible_nextFrameWithin (T : Transport τ) (reads : Nat) (c : Channel) (t : τ) :
    (nextFrameWithin T reads c t).2.1.interruptible = c.interruptible := by
  induction reads generalizing c t with
  | zero => rfl
  | succ reads ih =>
    rw [nextFrameWithin]
    split
    · next hsettled => exact interruptible_settled hsettled
    · split
      · rfl
      · split
        · next habsorb => exact interruptible_absorb habsorb
        · next habsorb => exact (ih ..).trans (interruptible_absorb habsorb)

/-- What is written behind the items is one more of them. -/
theorem Holds.push (h : Holds limit c { queue := s } [] items)
    (hfits : (∃ bound xs, item.encode bound = .ok xs) ∧ item.size ≤ limit) :
    Holds limit c { queue := s ++ item.stream } [] (items ++ [item]) := by
  obtain ⟨held, hbuffer, hdescriptors, hparts⟩ := h.parts
  refine ⟨h.limit_eq, fun other hmem => ?_, ⟨held, hbuffer, hdescriptors, ?_⟩, fun _ => rfl,
    fun hended => ?_⟩
  · rcases List.mem_append.1 hmem with hmem | hmem
    · exact h.fits other hmem
    · rw [List.mem_singleton.1 hmem]
      exact hfits
  · rw [List.flatMap_append, ← hparts, List.append_nil, List.append_nil, List.append_assoc]
    exact congrArg _ (congrArg _ (List.append_nil _).symm)
  · obtain ⟨hclosed, -⟩ := h.ended hended
    cases hclosed

/-- How a call ends that is made of a transport which carries a stream. -/
inductive Obtains (R : τ → Stream → Prop) (limit : Nat) (unwritten : Stream) :
    List Item → Reception (Frame × Option Descriptor) × Channel × τ → Prop
  /-- With the next item. -/
  | next {item : Item} {rest : List Item} {c : Channel} {t : τ} {s : Stream} (hR : R t s)
      (h : Holds limit c { queue := s } unwritten rest) :
      Obtains R limit unwritten (item :: rest) (.item (item.frame, item.descriptor), c, t)
  /-- It waits: all that was on its way was read, and has no answer in it. -/
  | waits {items : List Item} {c : Channel} {t : τ} (hR : R t [])
      (h : Holds limit c {} unwritten items) (hnone : c.settled? = none) :
      Obtains R limit unwritten items (.waiting, c, t)

/-- An open link is not at its end. -/
theorem Holds.ended_eq_false (h : Holds limit c { queue := s } unwritten items) :
    c.ended = false := by
  cases hended : c.ended with
  | false => rfl
  | true =>
    obtain ⟨hclosed, -⟩ := h.ended hended
    cases hclosed

theorem nextFrameWithin_obtains (hT : T.Carries R interrupts)
    (hc : interrupts = true → c.interruptible = false) {reads : Nat} (hreads : T.inflow t < reads)
    (hR : R t s) (h : Holds limit c { queue := s } unwritten items) :
    Obtains R limit unwritten items (nextFrameWithin T reads c t) := by
  induction reads generalizing c t s with
  | zero => omega
  | succ reads ih =>
    rw [nextFrameWithin]
    rcases h.settled with ⟨item, rest, c', rfl, h', hsettled⟩ | ⟨-, hclosed, -⟩ | ⟨hnone, -⟩
    · rw [hsettled]
      exact .next hR h'
    · cases hclosed
    · rw [hnone]
      have hread := hT t s hR
      generalize T.read t chunkSize = out at hread ⊢
      cases hread with
      | @brings front back t' hne hs hR' hlt =>
        have hdata : c.absorb (.data front.octets front.descriptors) = _ :=
          absorb_data (by rwa [Ne, Stream.octets_eq_nil]) _
        have hmoves : Link.Reads { queue := s } _ { queue := back } :=
          @Link.Reads.brings _ front back [] hne hs (Nat.le_refl _)
        obtain ⟨h', -⟩ := h.absorb h.ended_eq_false hmoves hdata
        simp only [hdata]
        exact ih hc (by omega) hR' h'
      | @dry t' hs hR' =>
        subst hs
        exact .waits hR' h hnone
      | @interrupted e t' hi he hR' hlt =>
        simp only [absorb_interrupted he, hc hi, Bool.false_eq_true, if_false]
        exact ih hc (by omega) hR' h

/-- **A call obtains the next item**, or waits without one. -/
theorem nextFrame_obtains (hT : T.Carries R interrupts)
    (hc : interrupts = true → c.interruptible = false) (hR : R t s)
    (h : Holds limit c { queue := s } unwritten items) :
    Obtains R limit unwritten items (nextFrame T c t) :=
  nextFrameWithin_obtains hT hc (by omega) hR h

end Channel

end Overseer
