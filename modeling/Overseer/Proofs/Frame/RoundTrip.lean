import Overseer.Channel.Frame
import Overseer.Proofs.Octets

/-!
# Frames, read back

`Frame.encodeMessage` and `Frame.encodeScalar` say exactly which messages and scalars have a frame
(`encodeMessage_eq_ok`, `encodeScalar_eq_ok`): the name must be there, the elements must be
countable in two octets, and the body must stay within the limit and within what four octets
measure. A frame that is written is read back in front of anything else, by every reader whose
limit its body does not exceed (`decode_message`, `decode_scalar`). The reader's induction is on
the elements of the message (`takeElements_flatMap`); `decode_frame` reduces a frame to its body.
-/

namespace Overseer.Frame

/-! ## What is written -/

/-- The body of a message's frame. -/
def body (m : Message) : Octets :=
  Octets.bigEndian 2 m.size ++ (elements m).flatMap element

/-- An element takes four octets more than its content. -/
@[simp] theorem length_element (xs : Octets) : (element xs).length = 4 + xs.length := by
  simp [element]

/-- Elements take four octets each, and their content. -/
theorem length_flatMap_element (xss : List Octets) :
    (xss.flatMap element).length = 4 * xss.length + total List.length xss := by
  induction xss with
  | nil => rfl
  | cons xs xss ih =>
    simp only [List.flatMap_cons, List.length_append, length_element, List.length_cons, total_cons,
      ih]
    omega

/-- A message has as many elements as its count says. -/
@[simp] theorem length_elements (m : Message) : (elements m).length = m.size := rfl

/-- The length of a body is the one that is announced for it. -/
@[simp] theorem length_body (m : Message) : (body m).length = bodySize m := by
  rw [body, List.length_append, Octets.length_bigEndian, length_flatMap_element, length_elements,
    bodySize]
  omega

/-- An element of a message is no longer than the message's body. -/
theorem length_le_bodySize {m : Message} {xs : Octets} (h : xs ∈ elements m) :
    xs.length ≤ bodySize m := by
  obtain ⟨before, after, hsplit⟩ := List.append_of_mem h
  simp only [bodySize, hsplit, total_append, total_cons]
  omega

/-- The two bounds of a body's length. -/
theorem checkSize_eq_ok {size limit : Nat} :
    checkSize size limit = .ok () ↔ size ≤ limit ∧ size ≤ maxLength := by
  unfold checkSize
  split
  · next h =>
    refine ⟨nofun, fun hle => ?_⟩
    omega
  · next h =>
    refine ⟨fun _ => ?_, fun _ => rfl⟩
    omega

/-- A body's length fails in one way. -/
theorem checkSize_eq_error {size limit : Nat} {e : ChannelError}
    (h : checkSize size limit = .error e) : e = .tooLarge size limit := by
  unfold checkSize at h
  split at h
  · cases h
    rfl
  · cases h

/-- What a message must be to have a frame within a limit. -/
structure Encodable (m : Message) (limit : Nat) : Prop where
  /-- It has a name. -/
  named : m.name ≠ ""
  /-- Two octets hold the number of its elements. -/
  countable : m.size ≤ maxElements
  /-- The limit admits its body. -/
  admitted : bodySize m ≤ limit
  /-- Four octets hold the length of its body. -/
  measurable : bodySize m ≤ maxLength

/-- Exactly the messages that can have a frame have one: the header and the body. -/
theorem encodeMessage_eq_ok {m : Message} {flagged : Bool} {limit : Nat} {xs : Octets} :
    encodeMessage m flagged limit = .ok xs ↔
      Encodable m limit ∧ header messageKind flagged (bodySize m) ++ body m = xs := by
  unfold encodeMessage
  split
  · next hname =>
    refine ⟨nofun, fun ⟨h, _⟩ => ?_⟩
    exact absurd (String.isEmpty_iff.1 hname) h.named
  · next hname =>
    have hnamed : m.name ≠ "" := fun h => hname (String.isEmpty_iff.2 h)
    split
    · next hcount =>
      refine ⟨nofun, fun ⟨h, _⟩ => ?_⟩
      exact absurd h.countable (Nat.not_le.2 hcount)
    · next hcount =>
      split
      · next hsize =>
        refine ⟨nofun, fun ⟨h, _⟩ => ?_⟩
        rw [checkSize_eq_ok.2 ⟨h.admitted, h.measurable⟩] at hsize
        cases hsize
      · next hsize =>
        obtain ⟨hlimit, hmax⟩ := checkSize_eq_ok.1 hsize
        rw [Except.ok.injEq, body, List.append_assoc]
        exact ⟨fun h => ⟨⟨hnamed, Nat.not_lt.1 hcount, hlimit, hmax⟩, h⟩, fun h => h.2⟩

/-- Exactly the scalars within both bounds have a frame: the header and the data. -/
theorem encodeScalar_eq_ok {data xs : Octets} {limit : Nat} :
    encodeScalar data limit = .ok xs ↔
      (data.length ≤ limit ∧ data.length ≤ maxLength) ∧
        header scalarKind false data.length ++ data = xs := by
  unfold encodeScalar
  split
  · next hsize =>
    refine ⟨nofun, fun ⟨h, _⟩ => ?_⟩
    rw [checkSize_eq_ok.2 h] at hsize
    cases hsize
  · next hsize =>
    rw [Except.ok.injEq]
    exact ⟨fun h => ⟨checkSize_eq_ok.1 hsize, h⟩, fun h => h.2⟩

/-! ## What is read back -/

/-- One element is taken off again. -/
theorem takeElement_element {xs : Octets} (h : xs.length ≤ maxLength) (rest : Octets) :
    takeElement (element xs ++ rest) = .ok (xs, rest) := by
  have hsize : Octets.toNat (Octets.bigEndian 4 xs.length) = xs.length := by
    apply Octets.toNat_bigEndian_of_lt
    rw [maxLength] at h
    omega
  have hfront : Octets.split? 4 (element xs ++ rest) =
      some (Octets.bigEndian 4 xs.length, xs ++ rest) :=
    Octets.split?_eq_some.2 ⟨List.append_assoc .., Octets.length_bigEndian ..⟩
  simp only [takeElement, hfront, hsize, Octets.split?_append]

/-- All elements are taken off again, behind those taken before. -/
theorem takeElements_flatMap {xss : List Octets} (h : ∀ xs ∈ xss, xs.length ≤ maxLength)
    (taken : List Octets) (rest : Octets) :
    takeElements xss.length taken (xss.flatMap element ++ rest) =
      .ok (taken.reverse ++ xss, rest) := by
  induction xss generalizing taken with
  | nil => simp [takeElements]
  | cons xs xss ih =>
    have hxs : xs.length ≤ maxLength := h xs List.mem_cons_self
    have hxss : ∀ ys ∈ xss, ys.length ≤ maxLength := fun ys hys => h ys (List.mem_cons_of_mem _ hys)
    rw [List.length_cons, List.flatMap_cons, List.append_assoc, takeElements,
      takeElement_element hxs]
    simp only
    rw [ih hxss, List.reverse_cons, List.append_assoc, List.singleton_append]

/-- A name that is there is read back from its UTF-8 form. -/
theorem readName_ofText {name : String} (h : name ≠ "") :
    readName (Octets.ofText name) = .ok name := by
  have hname : name.isEmpty = false := by
    rw [Bool.eq_false_iff]
    exact fun he => h (String.isEmpty_iff.1 he)
  simp [readName, hname]

/-- The body of a message that has a frame is read back. -/
theorem readMessage_body {m : Message} {limit : Nat} (h : Encodable m limit) :
    readMessage (body m) = .ok m := by
  have hcount : Octets.toNat (Octets.bigEndian 2 m.size) = m.args.length + 1 := by
    apply Octets.toNat_bigEndian_of_lt
    have := h.countable
    rw [maxElements] at this
    omega
  have hfront : Octets.split? 2 (body m) =
      some (Octets.bigEndian 2 m.size, (elements m).flatMap element) :=
    Octets.split?_eq_some.2 ⟨rfl, Octets.length_bigEndian ..⟩
  have hfits : ∀ xs ∈ elements m, xs.length ≤ maxLength := fun xs hxs =>
    Nat.le_trans (length_le_bodySize hxs) h.measurable
  have hname : takeElement ((elements m).flatMap element) =
      .ok (Octets.ofText m.name, m.args.flatMap element) :=
    takeElement_element (hfits _ List.mem_cons_self) _
  have hargs : takeElements m.args.length [] (m.args.flatMap element) = .ok (m.args, []) := by
    have := takeElements_flatMap (fun xs hxs => hfits xs (List.mem_cons_of_mem _ hxs)) [] []
    rwa [List.append_nil] at this
  simp [readMessage, hfront, hcount, hname, readName_ofText h.named, hargs]

/-- A buffer with a header is decided by the header and what stands behind it. -/
theorem decode_header (limit : Nat) (kind flags a b c d : UInt8) (tail : Octets) :
    decode limit (kind :: flags :: a :: b :: c :: d :: tail) =
      match checkSize (Octets.toNat [a, b, c, d]) limit with
      | .error e => .error e
      | .ok () =>
        match Octets.split? (Octets.toNat [a, b, c, d]) tail with
        | none => .ok none
        | some (body, rest) =>
          match read kind (flags &&& 1 != 0) body with
          | .error e => .error (.violation e)
          | .ok frame => .ok (some (frame, rest)) := rfl

/-- **A frame is decided by its body.** The reader whose limit admits the body of a frame reads
that body, whatever stands behind the frame. -/
theorem decode_frame {kind : UInt8} {flagged : Bool} {body : Octets} {limit : Nat}
    (hlimit : body.length ≤ limit) (hmax : body.length ≤ maxLength) (rest : Octets) :
    decode limit (header kind flagged body.length ++ body ++ rest) =
      match read kind flagged body with
      | .error e => .error (.violation e)
      | .ok frame => .ok (some (frame, rest)) := by
  have hsize : Octets.toNat (Octets.bigEndian 4 body.length) = body.length := by
    apply Octets.toNat_bigEndian_of_lt
    rw [maxLength] at hmax
    omega
  have hflag : ((if flagged = true then 1 else 0 : UInt8) &&& 1 != 0) = flagged := by
    cases flagged <;> rfl
  obtain ⟨a, b, c, d, hoctets⟩ : ∃ a b c d, Octets.bigEndian 4 body.length = [a, b, c, d] :=
    ⟨_, _, _, _, rfl⟩
  rw [hoctets] at hsize
  rw [header, hoctets]
  show decode limit (kind :: _ :: a :: b :: c :: d :: (body ++ rest)) = _
  rw [decode_header, hsize, checkSize_eq_ok.2 ⟨hlimit, hmax⟩, Octets.split?_append, hflag]

/-- A message is read back from its frame, in front of anything else. -/
theorem decode_message {m : Message} {flagged : Bool} {limit receiver : Nat} {xs : Octets}
    (h : encodeMessage m flagged limit = .ok xs) (hr : bodySize m ≤ receiver) (rest : Octets) :
    decode receiver (xs ++ rest) = .ok (some (.message m flagged, rest)) := by
  obtain ⟨hm, rfl⟩ := encodeMessage_eq_ok.1 h
  rw [← length_body] at hr ⊢
  have hmax : (body m).length ≤ maxLength := by
    rw [length_body]
    exact hm.measurable
  rw [decode_frame hr hmax]
  simp [read, readMessage_body hm]

/-- A scalar is read back from its frame, in front of anything else. -/
theorem decode_scalar {data : Octets} {limit receiver : Nat} {xs : Octets}
    (h : encodeScalar data limit = .ok xs) (hr : data.length ≤ receiver) (rest : Octets) :
    decode receiver (xs ++ rest) = .ok (some (.scalar data false, rest)) := by
  obtain ⟨⟨_, hmax⟩, rfl⟩ := encodeScalar_eq_ok.1 h
  rw [decode_frame hr hmax]
  simp [read, scalarKind, messageKind]

/-! ## The format as a whole -/

/-- The length of a body in terms of the message: two octets for the count, four for each element,
and the name and the arguments themselves. -/
theorem bodySize_eq (m : Message) :
    bodySize m =
      2 + 4 * (m.args.length + 1) + (m.name.utf8ByteSize + (m.args.map List.length).sum) := by
  have hsum : total List.length m.args = (m.args.map List.length).sum := rfl
  simp [bodySize, elements, Message.size, hsum]

/-- **Every frame that can be written is read back.** A message has a frame exactly if it has a
name, at most 65535 elements and a body within the limit and 32 bits; a scalar exactly if its data
is within the same two bounds. Whatever follows a frame, every receiver whose limit admits its body
reads the same message or data with the same flag, and is left with what follows. -/
theorem frame_round_trip (m : Message) (flagged : Bool) (data : Octets) (limit : Nat) :
    ((∃ xs, encodeMessage m flagged limit = .ok xs) ↔
      m.name ≠ "" ∧ m.args.length + 1 ≤ 65535 ∧
        2 + 4 * (m.args.length + 1) + (m.name.utf8ByteSize + (m.args.map List.length).sum) ≤
          min limit (2 ^ 32 - 1)) ∧
    ((∃ xs, encodeScalar data limit = .ok xs) ↔ data.length ≤ min limit (2 ^ 32 - 1)) ∧
    (∀ xs, encodeMessage m flagged limit = .ok xs → ∀ receiver rest,
      2 + 4 * (m.args.length + 1) + (m.name.utf8ByteSize + (m.args.map List.length).sum) ≤
        receiver →
      decode receiver (xs ++ rest) = .ok (some (.message m flagged, rest))) ∧
    (∀ xs, encodeScalar data limit = .ok xs → ∀ receiver rest, data.length ≤ receiver →
      decode receiver (xs ++ rest) = .ok (some (.scalar data false, rest))) := by
  refine ⟨⟨?_, ?_⟩, ⟨?_, ?_⟩, ?_, ?_⟩
  · rintro ⟨xs, h⟩
    obtain ⟨hm, -⟩ := encodeMessage_eq_ok.1 h
    rw [← bodySize_eq]
    exact ⟨hm.named, hm.countable, Nat.le_min.2 ⟨hm.admitted, hm.measurable⟩⟩
  · rintro ⟨hname, hcount, hsize⟩
    rw [← bodySize_eq] at hsize
    obtain ⟨hlimit, hmax⟩ := Nat.le_min.1 hsize
    exact ⟨_, encodeMessage_eq_ok.2 ⟨⟨hname, hcount, hlimit, hmax⟩, rfl⟩⟩
  · rintro ⟨xs, h⟩
    obtain ⟨⟨hlimit, hmax⟩, -⟩ := encodeScalar_eq_ok.1 h
    exact Nat.le_min.2 ⟨hlimit, hmax⟩
  · intro hsize
    obtain ⟨hlimit, hmax⟩ := Nat.le_min.1 hsize
    exact ⟨_, encodeScalar_eq_ok.2 ⟨⟨hlimit, hmax⟩, rfl⟩⟩
  · intro xs h receiver rest hr
    rw [← bodySize_eq] at hr
    exact decode_message h hr rest
  · intro xs h receiver rest hr
    exact decode_scalar h hr rest

/-- A name of two octets, an empty argument and one that looks like a header, in front of half a
header, at a limit that the body reaches exactly. -/
theorem frame_round_trip_tight :
    ∃ xs, encodeMessage ⟨"é", [[], [1, 0, 0, 0, 0, 9]]⟩ true 22 = .ok xs ∧
      decode 22 (xs ++ [2, 0, 0]) =
        .ok (some (.message ⟨"é", [[], [1, 0, 0, 0, 0, 9]]⟩ true, [2, 0, 0])) := by
  obtain ⟨hsome, -, hback, -⟩ := frame_round_trip ⟨"é", [[], [1, 0, 0, 0, 0, 9]]⟩ true [] 22
  obtain ⟨xs, h⟩ := hsome.2 ⟨by decide, by decide, by decide⟩
  exact ⟨xs, h, hback xs h 22 [2, 0, 0] (by decide)⟩

end Overseer.Frame
