import Overseer.Proofs.Channel.Receiving

/-!
# What a buffer decides

A channel answers from its buffer as soon as the buffer decides something. That is sound because
more octets do not change a decision, and because a decision is made neither before its frame is
complete nor at the cost of octets that belong to no frame (`buffer_decides_for_good`). What a
channel is left with when it has answered is said by `Channel.Leaves`.
-/

namespace Overseer.Channel

/-- Under a limit, a channel that answers with `xs` in its buffer is left with `rest` in it. -/
def Leaves (limit : Nat) (xs rest : Octets) : Prop :=
  ∀ c : Channel, c.limit = limit → c.buffer = xs →
    ∀ answer c', c.settled? = some (answer, c') → c'.buffer = rest

variable {limit : Nat} {xs rest : Octets} {frame : Frame}

/-- A channel that answers with a frame, or because of it, has taken it off the buffer. -/
theorem leaves_of_frame (h : Frame.decode limit xs = .ok (some (frame, rest))) :
    Leaves limit xs rest := by
  rintro c rfl rfl answer c' hsettled
  cases settles_iff.1 hsettled with
  | refused hdec | atEnd hdec | cutShort hdec => rw [h] at hdec; cases hdec
  | plain hdec | flagged hdec | missing hdec => rw [h] at hdec; cases hdec; rfl

/-- A channel whose buffer starts with no frame leaves it as it is. -/
theorem leaves_of_no_frame (h : ∀ found, Frame.decode limit xs ≠ .ok (some found)) :
    Leaves limit xs xs := by
  rintro c rfl rfl answer c' hsettled
  cases settles_iff.1 hsettled with
  | refused | atEnd | cutShort => rfl
  | plain hdec | flagged hdec | missing hdec => exact absurd hdec (h _)

/-- **A buffer decides for good.** If a frame is taken off the buffer, some octets from its front,
then the same frame and as many octets are taken off whatever follows, and what is left is followed
by it; on fewer octets there is no answer yet. An error stays the same. As long as there is no
frame, be it for an error or for want of octets, the buffer is left as it is. -/
theorem buffer_decides_for_good (limit : Nat) (xs ys : Octets) :
    (∀ frame rest, Frame.decode limit xs = .ok (some (frame, rest)) →
      ∃ k ≤ xs.length, xs.drop k = rest ∧ Leaves limit xs rest ∧
        Frame.decode limit (xs ++ ys) = .ok (some (frame, (xs ++ ys).drop k)) ∧
        (xs ++ ys).drop k = rest ++ ys ∧
        ∀ j < k, Frame.decode limit (xs.take j) = .ok none) ∧
    (∀ e, Frame.decode limit xs = .error e → Frame.decode limit (xs ++ ys) = .error e) ∧
    (Frame.decode limit xs = .ok none ∨ (∃ e, Frame.decode limit xs = .error e) →
      Leaves limit xs xs) := by
  refine ⟨fun frame rest h => ?_, fun e h => Frame.decode_append_error h ys, fun h => ?_⟩
  · obtain ⟨front, rfl, -⟩ := Frame.decode_consumes h
    have hrest : (front ++ rest ++ ys).drop front.length = rest ++ ys := by
      rw [List.append_assoc, List.drop_left]
    refine ⟨front.length, ?_, List.drop_left, leaves_of_frame h, ?_, hrest, fun j hj => ?_⟩
    · rw [List.length_append]
      exact Nat.le_add_right ..
    · rw [hrest]
      exact Frame.decode_append h ys
    · -- what is missing of the frame is longer than nothing, so `rest` would be too short
      rw [← List.take_append_drop j (front ++ rest)] at h
      refine Frame.decode_of_partial h ?_
      rw [List.length_drop, List.length_append]
      omega
  · refine leaves_of_no_frame fun found hfound => ?_
    rcases h with h | ⟨e, h⟩ <;> rw [h] at hfound <;> cases hfound

/-- A scalar behind which a header announces too much: four octets decide nothing, the frame is
taken with the header left, and the error stays when a body arrives. -/
theorem buffer_decides_for_good_twice :
    Frame.decode 3 [2, 0, 0, 0, 0, 1, 7, 2, 0, 0, 0, 0, 9] =
        .ok (some (.scalar [7] false, [2, 0, 0, 0, 0, 9])) ∧
      Frame.decode 3 [2, 0, 0, 0] = .ok none ∧
      Frame.decode 3 [2, 0, 0, 0, 0, 9, 5, 5] = .error (.tooLarge 9 3) := by
  have hscalar : Frame.decode 3 [2, 0, 0, 0, 0, 1, 7] = .ok (some (.scalar [7] false, [])) :=
    Frame.decode_eq_some.2
      ⟨2, 0, 0, 0, 0, 1, [7], rfl, rfl, Frame.checkSize_eq_ok.2 ⟨by decide, by decide⟩, rfl⟩
  have htooLarge : Frame.decode 3 [2, 0, 0, 0, 0, 9] = .error (.tooLarge 9 3) :=
    Frame.decode_eq_error.2 ⟨2, 0, 0, 0, 0, 9, [], rfl, .inl (if_pos (by decide))⟩
  obtain ⟨hframe, -, -⟩ := buffer_decides_for_good 3 [2, 0, 0, 0, 0, 1, 7] [2, 0, 0, 0, 0, 9]
  obtain ⟨-, herror, -⟩ := buffer_decides_for_good 3 [2, 0, 0, 0, 0, 9] [5, 5]
  obtain ⟨k, hle, hdrop, -, hmore, -, hpart⟩ := hframe _ _ hscalar
  obtain rfl : k = 7 := by
    rw [List.drop_eq_nil_iff] at hdrop
    exact Nat.le_antisymm hle hdrop
  exact ⟨hmore, hpart 4 (by decide), herror _ htooLarge⟩

end Overseer.Channel
