import Overseer.Proofs.Frame.RoundTrip

/-!
# Reading a frame is stable

What `Frame.decode` answers for a buffer it also answers for every longer one, once it answers
anything: a frame stays the same, with more behind it (`decode_append`), and so does an error
(`decode_append_error`). So it does not matter for an answer how much has arrived behind the octets
that decide it, and on a part of a frame there is no answer yet (`decode_of_partial`). All of it
rests on the two inversions `decode_eq_some` and `decode_eq_error`, which say once which buffers a
frame or an error is read off.
-/

namespace Overseer.Frame

/-! ## Inversions -/

/-- A buffer off which something is read, be it a frame or an error, has a header. -/
theorem header_of_decode {limit : Nat} {xs : Octets} (h : decode limit xs ≠ .ok none) :
    ∃ kind flags a b c d tail, xs = kind :: flags :: a :: b :: c :: d :: tail := by
  unfold decode at h
  split at h
  · exact ⟨_, _, _, _, _, _, _, rfl⟩
  · exact absurd rfl h

/-- The buffers off which a frame is read: those with a header, the body that it announces, which
is within the bounds and reads as the frame, and anything behind. -/
theorem decode_eq_some {limit : Nat} {xs rest : Octets} {frame : Frame} :
    decode limit xs = .ok (some (frame, rest)) ↔
      ∃ kind flags a b c d body, xs = kind :: flags :: a :: b :: c :: d :: (body ++ rest) ∧
        body.length = Octets.toNat [a, b, c, d] ∧ checkSize body.length limit = .ok () ∧
        read kind (flags &&& 1 != 0) body = .ok frame := by
  constructor
  · intro h
    obtain ⟨kind, flags, a, b, c, d, tail, rfl⟩ := header_of_decode (by rw [h]; nofun)
    rw [decode_header] at h
    split at h
    · cases h
    · next hsize =>
      split at h
      · cases h
      · next body more hbody =>
        obtain ⟨rfl, hlen⟩ := Octets.split?_eq_some.1 hbody
        split at h
        · cases h
        · next hread =>
          obtain ⟨rfl, rfl⟩ := by simpa using h
          exact ⟨kind, flags, a, b, c, d, body, rfl, hlen, hlen ▸ hsize, hread⟩
  · rintro ⟨kind, flags, a, b, c, d, body, rfl, hlen, hsize, hread⟩
    rw [decode_header, ← hlen, hsize, Octets.split?_append]
    simp only [hread]

/-- The buffers off which an error is read: those whose header announces too long a body, and those
whose body is complete and reads as nothing. -/
theorem decode_eq_error {limit : Nat} {xs : Octets} {e : ChannelError} :
    decode limit xs = .error e ↔
      ∃ kind flags a b c d tail, xs = kind :: flags :: a :: b :: c :: d :: tail ∧
        (checkSize (Octets.toNat [a, b, c, d]) limit = .error e ∨
          checkSize (Octets.toNat [a, b, c, d]) limit = .ok () ∧
          ∃ body rest cause, tail = body ++ rest ∧ body.length = Octets.toNat [a, b, c, d] ∧
            read kind (flags &&& 1 != 0) body = .error cause ∧ e = .violation cause) := by
  constructor
  · intro h
    obtain ⟨kind, flags, a, b, c, d, tail, rfl⟩ := header_of_decode (by rw [h]; nofun)
    refine ⟨kind, flags, a, b, c, d, tail, rfl, ?_⟩
    rw [decode_header] at h
    split at h
    · next hsize =>
      obtain rfl := by simpa using h
      exact .inl hsize
    · next hsize =>
      refine .inr ⟨hsize, ?_⟩
      split at h
      · cases h
      · next body more hbody =>
        obtain ⟨rfl, hlen⟩ := Octets.split?_eq_some.1 hbody
        split at h
        · next cause hread =>
          obtain rfl := by simpa using h
          exact ⟨body, more, cause, rfl, hlen, hread, rfl⟩
        · cases h
  · rintro ⟨kind, flags, a, b, c, d, tail, rfl, hsize | ⟨hsize, body, rest, cause, rfl, hlen, hread,
      rfl⟩⟩
    · rw [decode_header, hsize]
    · rw [decode_header, hsize, ← hlen, Octets.split?_append]
      simp only [hread]

/-- There are two ways to be refused. -/
theorem cause_of_decode {limit : Nat} {xs : Octets} {e : ChannelError}
    (h : decode limit xs = .error e) :
    (∃ size bound, e = .tooLarge size bound) ∨ ∃ cause, e = .violation cause := by
  obtain ⟨kind, flags, a, b, c, d, tail, -, hsize | ⟨-, -, -, cause, -, -, -, hcause⟩⟩ :=
    decode_eq_error.1 h
  · exact .inl ⟨_, _, checkSize_eq_error hsize⟩
  · exact .inr ⟨cause, hcause⟩

/-- The buffers off which nothing is read: those without a header, and those with one that announces
an admitted body of which a part is missing. -/
theorem decode_eq_none {limit : Nat} {xs : Octets} :
    decode limit xs = .ok none ↔
      xs.length < headerSize ∨
        ∃ kind flags a b c d tail, xs = kind :: flags :: a :: b :: c :: d :: tail ∧
          checkSize (Octets.toNat [a, b, c, d]) limit = .ok () ∧
          tail.length < Octets.toNat [a, b, c, d] := by
  constructor
  · intro h
    rcases Nat.lt_or_ge xs.length headerSize with hshort | hheader
    · exact .inl hshort
    · match xs, hheader with
      | kind :: flags :: a :: b :: c :: d :: tail, _ =>
        refine .inr ⟨kind, flags, a, b, c, d, tail, rfl, ?_⟩
        rw [decode_header] at h
        split at h
        · cases h
        · next hsize =>
          split at h
          · next hsplit => exact ⟨hsize, Octets.split?_eq_none.1 hsplit⟩
          · split at h <;> cases h
  · rintro (hshort | ⟨kind, flags, a, b, c, d, tail, rfl, hsize, hlt⟩)
    · unfold decode
      split
      · simp only [headerSize, List.length_cons] at hshort
        omega
      · rfl
    · rw [decode_header, hsize, Octets.split?_eq_none.2 hlt]

/-! ## Stability -/

/-- **A frame stays what it is**, whatever arrives behind it. -/
theorem decode_append {limit : Nat} {xs rest : Octets} {frame : Frame}
    (h : decode limit xs = .ok (some (frame, rest))) (ys : Octets) :
    decode limit (xs ++ ys) = .ok (some (frame, rest ++ ys)) := by
  obtain ⟨kind, flags, a, b, c, d, body, rfl, hbody⟩ := decode_eq_some.1 h
  refine decode_eq_some.2 ⟨kind, flags, a, b, c, d, body, ?_, hbody⟩
  simp only [List.cons_append, List.append_assoc]

/-- An error stays what it is, whatever arrives behind it. -/
theorem decode_append_error {limit : Nat} {xs : Octets} {e : ChannelError}
    (h : decode limit xs = .error e) (ys : Octets) : decode limit (xs ++ ys) = .error e := by
  obtain ⟨kind, flags, a, b, c, d, tail, rfl, hcause⟩ := decode_eq_error.1 h
  refine decode_eq_error.2 ⟨kind, flags, a, b, c, d, tail ++ ys, rfl, ?_⟩
  rcases hcause with hsize | ⟨hsize, body, rest, cause, rfl, hbody⟩
  · exact .inl hsize
  · exact .inr ⟨hsize, body, rest ++ ys, cause, List.append_assoc .., hbody⟩

/-- A frame is taken off the front of the buffer, with its header at least. -/
theorem decode_consumes {limit : Nat} {xs rest : Octets} {frame : Frame}
    (h : decode limit xs = .ok (some (frame, rest))) :
    ∃ front, xs = front ++ rest ∧ headerSize ≤ front.length := by
  obtain ⟨kind, flags, a, b, c, d, body, rfl, -⟩ := decode_eq_some.1 h
  exact ⟨kind :: flags :: a :: b :: c :: d :: body, rfl, Nat.le_add_left ..⟩

/-- **A part of a frame decides nothing.** An answer for it would also be the answer for the whole
frame, and leave too little behind. -/
theorem decode_of_partial {limit : Nat} {xs ys rest : Octets} {frame : Frame}
    (h : decode limit (xs ++ ys) = .ok (some (frame, rest))) (hshort : rest.length < ys.length) :
    decode limit xs = .ok none := by
  cases hxs : decode limit xs with
  | error e =>
    rw [decode_append_error hxs ys] at h
    cases h
  | ok answer =>
    cases answer with
    | none => rfl
    | some found =>
      obtain ⟨frame', rest'⟩ := found
      rw [decode_append hxs ys] at h
      obtain ⟨-, rfl⟩ := by simpa using h
      rw [List.length_append] at hshort
      omega

end Overseer.Frame
