import Overseer.Proofs.Frame.Positions

/-!
# The grammar that the decoder accepts

Which buffers `Frame.decode` reads what off, said without the decoder: by the length that stands in
octets 2 to 5 (`announced`), by the octets that follow the header (`Whole`), and by the elements
that fill the body of a message (`IsBody`). The readers of elements, names and messages are
inverted one after the other (`takeElement_eq_ok` to `readMessage_eq_ok`), the buffer is cut where
its header says (`whole_iff`), and `decode_grammar` has the five answers side by side.
-/

namespace Overseer.Frame

/-! ## The grammar -/

/-- Elements, each behind its length in four octets, that fill a string exactly. -/
inductive Fill : List Octets → Octets → Prop where
  | nil : Fill [] []
  | cons {size xs rest : Octets} {xss : List Octets} (width : size.length = 4)
      (measured : Octets.toNat size = xs.length) (others : Fill xss rest) :
      Fill (xs :: xss) (size ++ xs ++ rest)

/-- The body of a message: a count in two octets, of at least one, and as many elements, which fill
the rest of it. The first element is text and not empty, and the others are the arguments. -/
def IsBody (m : Message) (body : Octets) : Prop :=
  ∃ count name octets, body = count ++ octets ∧ count.length = 2 ∧
    Octets.toNat count = m.args.length + 1 ∧ Fill (name :: m.args) octets ∧
    Octets.text? name = some m.name ∧ name ≠ []

/-- The number that octets 2 to 5 of a buffer write. -/
def announced (xs : Octets) : Nat := Octets.toNat ((xs.drop 2).take 4)

/-- A buffer starts with a header, and the body that it announces is within a limit and complete.
It ends with `rest`. -/
structure Whole (limit : Nat) (xs body rest : Octets) : Prop where
  /-- The limit admits the body. -/
  admitted : announced xs ≤ limit
  /-- The body is complete. -/
  complete : headerSize + announced xs ≤ xs.length
  /-- The body is behind the header. -/
  body : body = (xs.drop headerSize).take (announced xs)
  /-- The rest is behind the body. -/
  rest : rest = xs.drop (headerSize + announced xs)

/-! ## The readers of a body -/

variable {octets xs rest : Octets} {m : Message} {name : String}

/-- An element is taken off exactly where it stands behind its length. -/
theorem takeElement_eq_ok :
    takeElement octets = .ok (xs, rest) ↔
      ∃ size, octets = size ++ xs ++ rest ∧ size.length = 4 ∧ Octets.toNat size = xs.length := by
  unfold takeElement
  constructor
  · intro h
    split at h
    · cases h
    · next size more hsize =>
      obtain ⟨rfl, hwidth⟩ := Octets.split?_eq_some.1 hsize
      split at h
      · cases h
      · next hxs =>
        obtain ⟨rfl, hlength⟩ := Octets.split?_eq_some.1 hxs
        cases h
        exact ⟨size, (List.append_assoc ..).symm, hwidth, hlength.symm⟩
  · rintro ⟨size, rfl, hwidth, hlength⟩
    have hfront : Octets.split? 4 (size ++ xs ++ rest) = some (size, xs ++ rest) :=
      Octets.split?_eq_some.2 ⟨List.append_assoc .., hwidth⟩
    simp only [hfront, hlength, Octets.split?_append]

/-- Elements are taken off exactly where they fill a front part. -/
theorem takeElements_eq_ok {count : Nat} {taken xss : List Octets} :
    takeElements count taken octets = .ok (xss, rest) ↔
      ∃ more front, xss = taken.reverse ++ more ∧ more.length = count ∧ octets = front ++ rest ∧
        Fill more front := by
  induction count generalizing taken octets with
  | zero =>
    constructor
    · intro h
      cases h
      exact ⟨[], [], (List.append_nil _).symm, rfl, rfl, .nil⟩
    · rintro ⟨more, front, rfl, hcount, rfl, hfill⟩
      obtain rfl := List.length_eq_zero_iff.1 hcount
      cases hfill
      rw [takeElements, List.append_nil]
      rfl
  | succ count ih =>
    unfold takeElements
    constructor
    · intro h
      split at h
      · cases h
      · next xs tail htake =>
        obtain ⟨size, rfl, hwidth, hmeasured⟩ := takeElement_eq_ok.1 htake
        obtain ⟨more, front, rfl, hcount, rfl, hfill⟩ := ih.1 h
        refine ⟨xs :: more, size ++ xs ++ front, ?_, congrArg _ hcount, ?_,
          .cons hwidth hmeasured hfill⟩
        · rw [List.reverse_cons, List.append_assoc, List.singleton_append]
        · rw [List.append_assoc _ front]
    · rintro ⟨more, front, rfl, hcount, rfl, hfill⟩
      cases hfill with
      | nil => cases hcount
      | @cons size xs front more hwidth hmeasured hfill =>
        have htake : takeElement (size ++ xs ++ front ++ rest) = .ok (xs, front ++ rest) :=
          takeElement_eq_ok.2 ⟨size, List.append_assoc .., hwidth, hmeasured⟩
        simp only [htake]
        refine ih.2 ⟨more, front, ?_, Nat.succ.inj hcount, rfl, hfill⟩
        rw [List.reverse_cons, List.append_assoc, List.singleton_append]

/-- A name is the text that octets are, if there are any. -/
theorem readName_eq_ok : readName xs = .ok name ↔ Octets.text? xs = some name ∧ xs ≠ [] := by
  unfold readName
  cases htext : Octets.text? xs with
  | none => exact ⟨nofun, fun h => nomatch h.1⟩
  | some found =>
    have hempty : found.isEmpty = true ↔ xs = [] := by
      rw [String.isEmpty_iff, ← Octets.ofText_of_text? htext, ← List.length_eq_zero_iff,
        Octets.length_ofText, String.utf8ByteSize_eq_zero_iff]
    simp only [hempty]
    split
    · next hnil => exact ⟨nofun, fun h => absurd hnil h.2⟩
    · next hnil =>
      rw [Except.ok.injEq, Option.some.injEq]
      exact ⟨fun h => ⟨h, hnil⟩, fun h => h.1⟩

/-- **A message is read off exactly the bodies that the grammar has for it.** -/
theorem readMessage_eq_ok : readMessage octets = .ok m ↔ IsBody m octets := by
  unfold readMessage
  constructor
  · intro h
    split at h
    · cases h
    · next count tail hcount =>
      obtain ⟨rfl, hwidth⟩ := Octets.split?_eq_some.1 hcount
      split at h
      · cases h
      · next n hn =>
        split at h
        · cases h
        · next name more htake =>
          obtain ⟨size, rfl, hsize, hmeasured⟩ := takeElement_eq_ok.1 htake
          split at h
          · cases h
          · next found hname =>
            obtain ⟨htext, hnamed⟩ := readName_eq_ok.1 hname
            split at h
            · cases h
            · next args left hargs =>
              obtain ⟨args, front, rfl, rfl, rfl, hfill⟩ := takeElements_eq_ok.1 hargs
              split at h
              · next hleft =>
                cases h
                rw [List.isEmpty_iff.1 hleft, List.append_nil]
                exact ⟨count, name, _, rfl, hwidth, hn, .cons hsize hmeasured hfill, htext, hnamed⟩
              · cases h
  · rintro ⟨count, name, tail, rfl, hwidth, hn, hfill, htext, hnamed⟩
    cases hfill with
    | @cons size _ front _ hsize hmeasured hfill =>
      have hcount : Octets.split? 2 (count ++ (size ++ name ++ front)) =
          some (count, size ++ name ++ front) := Octets.split?_eq_some.2 ⟨rfl, hwidth⟩
      have htake : takeElement (size ++ name ++ front) = .ok (name, front) :=
        takeElement_eq_ok.2 ⟨size, rfl, hsize, hmeasured⟩
      have hargs : takeElements m.args.length [] front = .ok (m.args, []) :=
        takeElements_eq_ok.2 ⟨m.args, front, rfl, rfl, (List.append_nil _).symm, hfill⟩
      simp only [hcount, hn, htake, readName_eq_ok.2 ⟨htext, hnamed⟩, hargs, List.isEmpty_nil,
        if_true]

/-! ## The buffer, cut where its header says -/

variable {limit : Nat} {body data : Octets} {kind flags : UInt8} {flagged : Bool}

/-- Four octets never announce more than four octets hold, so the limit alone decides. -/
theorem checkSize_announced (limit : Nat) (xs : Octets) :
    checkSize (announced xs) limit =
      if limit < announced xs then .error (.tooLarge (announced xs) limit) else .ok () := by
  have hfour : ((xs.drop 2).take 4).length ≤ 4 := by
    rw [List.length_take]
    exact Nat.min_le_left ..
  have hsize : announced xs < 256 ^ 4 :=
    Nat.lt_of_lt_of_le (Octets.toNat_lt _) (Nat.pow_le_pow_right (by decide) hfour)
  have hmax : ¬ announced xs > maxLength := by
    rw [maxLength]
    omega
  simp only [checkSize, hmax, or_false]

/-- A whole frame, in the pieces that the decoder finds. -/
theorem whole_iff : Whole limit xs body rest ↔
    ∃ kind flags a b c d, xs = kind :: flags :: a :: b :: c :: d :: (body ++ rest) ∧
      body.length = Octets.toNat [a, b, c, d] ∧ checkSize body.length limit = .ok () := by
  constructor
  · intro h
    obtain ⟨kind, flags, a, b, c, d, tail, rfl⟩ :=
      header_of_length (Nat.le_trans (Nat.le_add_right ..) h.complete)
    have hcheck := checkSize_announced limit (kind :: flags :: a :: b :: c :: d :: tail)
    rw [if_neg (Nat.not_lt.2 h.admitted)] at hcheck
    have hsize : announced (kind :: flags :: a :: b :: c :: d :: tail) =
        Octets.toNat [a, b, c, d] := rfl
    rw [hsize] at hcheck
    obtain ⟨-, hcomplete, hbody, hrest⟩ := h
    rw [hsize] at hcomplete hbody hrest
    generalize hfour : Octets.toNat [a, b, c, d] = size at hcheck hcomplete hbody hrest
    obtain rfl : body = tail.take size := hbody
    obtain rfl : rest = tail.drop size := by
      rw [hrest, Nat.add_comm]
      rfl
    have hlength : (tail.take size).length = size := by
      rw [List.length_take]
      simp only [List.length_cons, headerSize] at hcomplete
      omega
    refine ⟨kind, flags, a, b, c, d, ?_, hlength.trans hfour.symm, hlength.symm ▸ hcheck⟩
    rw [List.take_append_drop]
  · rintro ⟨kind, flags, a, b, c, d, rfl, hlength, hcheck⟩
    have hsize : announced (kind :: flags :: a :: b :: c :: d :: (body ++ rest)) = body.length :=
      hlength.symm
    obtain ⟨hlimit, -⟩ := checkSize_eq_ok.1 hcheck
    refine ⟨hsize.symm ▸ hlimit, ?_, ?_, ?_⟩
    · rw [hsize, headerSize]
      simp only [List.length_cons, List.length_append]
      omega
    · rw [hsize]
      exact (List.take_left ..).symm
    · rw [hsize, Nat.add_comm]
      exact (List.drop_left ..).symm

/-- The second octet of a frame is looked at for its bit 0. -/
theorem flag_eq_testBit (flags : UInt8) : (flags &&& 1 != 0) = flags.toNat.testBit 0 := by
  rw [flag_eq]
  cases flags.toNat.testBit 0 <;> rfl

/-- A frame is read off a whole one. -/
theorem decode_eq_some_iff {frame : Frame} :
    decode limit xs = .ok (some (frame, rest)) ↔
      ∃ body kind flags, Whole limit xs body rest ∧ xs[0]? = some kind ∧ xs[1]? = some flags ∧
        read kind (flags.toNat.testBit 0) body = .ok frame := by
  rw [decode_eq_some]
  constructor
  · rintro ⟨kind, flags, a, b, c, d, body, rfl, hlength, hcheck, hread⟩
    rw [flag_eq_testBit] at hread
    exact ⟨body, kind, flags, whole_iff.2 ⟨_, _, _, _, _, _, rfl, hlength, hcheck⟩, rfl, rfl, hread⟩
  · rintro ⟨body, kind, flags, hwhole, hkind, hflags, hread⟩
    obtain ⟨kind', flags', a, b, c, d, rfl, hlength, hcheck⟩ := whole_iff.1 hwhole
    obtain rfl : kind' = kind := Option.some.inj hkind
    obtain rfl : flags' = flags := Option.some.inj hflags
    rw [← flag_eq_testBit] at hread
    exact ⟨kind', flags', a, b, c, d, body, rfl, hlength, hcheck, hread⟩

/-- A frame that is none is refused once it is whole. -/
theorem decode_eq_violation_iff {cause : Violation} :
    decode limit xs = .error (.violation cause) ↔
      ∃ body rest kind flags, Whole limit xs body rest ∧ xs[0]? = some kind ∧ xs[1]? = some flags ∧
        read kind (flags.toNat.testBit 0) body = .error cause := by
  rw [decode_eq_error]
  constructor
  · rintro ⟨kind, flags, a, b, c, d, tail, rfl, hsize | ⟨hcheck, body, rest, cause', rfl, hlength,
      hread, hcause⟩⟩
    · cases checkSize_eq_error hsize
    · cases hcause
      rw [flag_eq_testBit] at hread
      exact ⟨body, rest, kind, flags,
        whole_iff.2 ⟨_, _, _, _, _, _, rfl, hlength, hlength ▸ hcheck⟩, rfl, rfl, hread⟩
  · rintro ⟨body, rest, kind, flags, hwhole, hkind, hflags, hread⟩
    obtain ⟨kind', flags', a, b, c, d, rfl, hlength, hcheck⟩ := whole_iff.1 hwhole
    obtain rfl : kind' = kind := Option.some.inj hkind
    obtain rfl : flags' = flags := Option.some.inj hflags
    rw [← flag_eq_testBit] at hread
    exact ⟨kind', flags', a, b, c, d, _, rfl,
      .inr ⟨hlength ▸ hcheck, body, rest, cause, rfl, hlength, hread, rfl⟩⟩

/-- A frame is refused for its length as soon as its header is there. -/
theorem decode_eq_tooLarge_iff {size bound : Nat} :
    decode limit xs = .error (.tooLarge size bound) ↔
      headerSize ≤ xs.length ∧ limit < announced xs ∧ size = announced xs ∧ bound = limit := by
  rw [decode_eq_error]
  constructor
  · rintro ⟨kind, flags, a, b, c, d, tail, rfl, hsize | ⟨-, _, _, _, -, -, -, hcause⟩⟩
    · have hcheck := checkSize_announced limit (kind :: flags :: a :: b :: c :: d :: tail)
      have hsame := hcheck.symm.trans hsize
      split at hsame
      · next hlimit =>
        cases hsame
        exact ⟨Nat.le_add_left .., hlimit, rfl, rfl⟩
      · cases hsame
    · cases hcause
  · rintro ⟨hlong, hlimit, rfl, rfl⟩
    obtain ⟨kind, flags, a, b, c, d, tail, rfl⟩ := header_of_length hlong
    have hcheck := checkSize_announced bound (kind :: flags :: a :: b :: c :: d :: tail)
    rw [if_pos hlimit] at hcheck
    exact ⟨kind, flags, a, b, c, d, tail, rfl, .inl hcheck⟩

/-- Something is read off a whole frame, or it is refused. -/
theorem decode_ne_none (h : Whole limit xs body rest) : decode limit xs ≠ .ok none := by
  intro hnone
  obtain ⟨kind, flags, a, b, c, d, rfl, hlength, hcheck⟩ := whole_iff.1 h
  rw [decode_header, ← hlength, hcheck, Octets.split?_append] at hnone
  cases hread : read kind (flags &&& 1 != 0) body with
  | error cause =>
    simp only [hread] at hnone
    cases hnone
  | ok frame =>
    simp only [hread] at hnone
    cases hnone

/-- Nothing is decided before the header is there, nor before a body is that the limit admits. -/
theorem decode_eq_none_iff :
    decode limit xs = .ok none ↔
      xs.length < headerSize ∨ announced xs ≤ limit ∧ xs.length < headerSize + announced xs := by
  constructor
  · intro h
    by_cases hlong : headerSize ≤ xs.length
    · by_cases hlimit : announced xs ≤ limit
      · by_cases hcomplete : headerSize + announced xs ≤ xs.length
        · exact absurd h (decode_ne_none ⟨hlimit, hcomplete, rfl, rfl⟩)
        · exact .inr ⟨hlimit, Nat.lt_of_not_le hcomplete⟩
      · rw [decode_eq_tooLarge_iff.2 ⟨hlong, Nat.lt_of_not_le hlimit, rfl, rfl⟩] at h
        cases h
    · exact .inl (Nat.lt_of_not_le hlong)
  · intro hpending
    have hpart : ∀ {body rest}, ¬ Whole limit xs body rest := fun h => by
      have := h.complete
      omega
    cases h : decode limit xs with
    | ok answer =>
      cases answer with
      | none => rfl
      | some found =>
        obtain ⟨_, _, _, hwhole, -⟩ := decode_eq_some_iff.1 h
        exact absurd hwhole hpart
    | error e =>
      rcases cause_of_decode h with ⟨size, bound, rfl⟩ | ⟨cause, rfl⟩
      · obtain ⟨hlong, hlimit, -⟩ := decode_eq_tooLarge_iff.1 h
        omega
      · obtain ⟨_, _, _, _, hwhole, -⟩ := decode_eq_violation_iff.1 h
        exact absurd hwhole hpart

/-! ## Kinds -/

variable {flagged' : Bool}

/-- A scalar is its body. -/
theorem read_eq_scalar :
    read kind flagged body = .ok (.scalar data flagged') ↔
      kind = scalarKind ∧ body = data ∧ flagged = flagged' := by
  unfold read
  split
  · next hkind =>
    have hne : kind ≠ scalarKind := hkind ▸ by decide
    refine ⟨fun h => ?_, fun h => absurd h.1 hne⟩
    split at h <;> cases h
  · split
    · next hkind =>
      rw [Except.ok.injEq, Frame.scalar.injEq]
      exact ⟨fun h => ⟨hkind, h⟩, fun h => h.2⟩
    · next hkind => exact ⟨nofun, fun h => absurd h.1 hkind⟩

/-- A message is read off its body. -/
theorem read_eq_message :
    read kind flagged body = .ok (.message m flagged') ↔
      kind = messageKind ∧ IsBody m body ∧ flagged = flagged' := by
  unfold read
  split
  · next hkind =>
    rw [← readMessage_eq_ok]
    cases readMessage body with
    | error cause => exact ⟨nofun, fun h => nomatch h.2.1⟩
    | ok found =>
      simp only [Except.ok.injEq, Frame.message.injEq]
      exact ⟨fun h => ⟨hkind, h⟩, fun h => h.2⟩
  · next hkind =>
    refine ⟨fun h => ?_, fun h => absurd h.1 hkind⟩
    split at h <;> cases h

/-- Everything else is refused. -/
theorem read_eq_error :
    (∃ cause, read kind flagged body = .error cause) ↔
      kind ≠ scalarKind ∧ ¬ (kind = messageKind ∧ ∃ m, IsBody m body) := by
  cases h : read kind flagged body with
  | error cause =>
    refine ⟨fun _ => ⟨?_, ?_⟩, fun _ => ⟨cause, rfl⟩⟩
    · rintro rfl
      have hread : read scalarKind flagged body = .ok (.scalar body flagged) :=
        read_eq_scalar.2 ⟨rfl, rfl, rfl⟩
      cases h.symm.trans hread
    · rintro ⟨rfl, m, hm⟩
      cases h.symm.trans (read_eq_message.2 ⟨rfl, hm, rfl⟩)
  | ok frame =>
    refine ⟨nofun, fun ⟨hscalar, hmessage⟩ => ?_⟩
    cases frame with
    | scalar data flagged' => exact absurd (read_eq_scalar.1 h).1 hscalar
    | message m flagged' =>
      obtain ⟨hkind, hm, -⟩ := read_eq_message.1 h
      exact absurd ⟨hkind, m, hm⟩ hmessage

/-! ## The grammar as a whole -/

/-- **The decoder accepts exactly the grammar.** Of every buffer and limit it says that

* more is needed, exactly if the header is not there or a body that the limit admits is not
  complete;
* the frame is too large, with what its header announces, exactly if that is above the limit;
* it is a scalar, exactly if the frame is whole and of kind 2; the data is the body;
* it is a message, exactly if the frame is whole and of kind 1 and its body is one of the message;
* it is a violation, exactly if the frame is whole and neither;

and nothing else. A frame is flagged exactly if bit 0 of the second octet is set, and the octets
behind the frame are left. All this is read by positions without a fault. -/
theorem decode_grammar (limit : Nat) (xs : Octets) :
    (decode limit xs = .ok none ↔
      xs.length < 6 ∨ announced xs ≤ limit ∧ xs.length < 6 + announced xs) ∧
    (∀ size bound, decode limit xs = .error (.tooLarge size bound) ↔
      6 ≤ xs.length ∧ limit < announced xs ∧ size = announced xs ∧ bound = limit) ∧
    (∀ data flagged rest, decode limit xs = .ok (some (.scalar data flagged, rest)) ↔
      Whole limit xs data rest ∧ xs[0]? = some 2 ∧
        xs[1]?.map (fun flags => flags.toNat.testBit 0) = some flagged) ∧
    (∀ m flagged rest, decode limit xs = .ok (some (.message m flagged, rest)) ↔
      ∃ body, Whole limit xs body rest ∧ xs[0]? = some 1 ∧ IsBody m body ∧
        xs[1]?.map (fun flags => flags.toNat.testBit 0) = some flagged) ∧
    ((∃ cause, decode limit xs = .error (.violation cause)) ↔
      ∃ body rest, Whole limit xs body rest ∧ xs[0]? ≠ some 2 ∧
        ¬ (xs[0]? = some 1 ∧ ∃ m, IsBody m body)) ∧
    (∀ e, decode limit xs = .error e →
      (∃ size bound, e = .tooLarge size bound) ∨ ∃ cause, e = .violation cause) ∧
    decodeAt limit xs = Counted.sure (decode limit xs) := by
  refine ⟨decode_eq_none_iff, fun _ _ => decode_eq_tooLarge_iff, fun data flagged rest => ?_,
    fun m flagged rest => ?_, ?_, fun _ => cause_of_decode, decodeAt_eq limit xs⟩
  · rw [decode_eq_some_iff]
    constructor
    · rintro ⟨body, kind, flags, hwhole, hkind, hflags, hread⟩
      obtain ⟨rfl, rfl, rfl⟩ := read_eq_scalar.1 hread
      exact ⟨hwhole, hkind, by rw [hflags, Option.map_some]⟩
    · rintro ⟨hwhole, hkind, hflagged⟩
      obtain ⟨flags, hflags, rfl⟩ := Option.map_eq_some_iff.1 hflagged
      exact ⟨data, 2, flags, hwhole, hkind, hflags, read_eq_scalar.2 ⟨rfl, rfl, rfl⟩⟩
  · rw [decode_eq_some_iff]
    constructor
    · rintro ⟨body, kind, flags, hwhole, hkind, hflags, hread⟩
      obtain ⟨rfl, hm, rfl⟩ := read_eq_message.1 hread
      exact ⟨body, hwhole, hkind, hm, by rw [hflags, Option.map_some]⟩
    · rintro ⟨body, hwhole, hkind, hm, hflagged⟩
      obtain ⟨flags, hflags, rfl⟩ := Option.map_eq_some_iff.1 hflagged
      exact ⟨body, 1, flags, hwhole, hkind, hflags, read_eq_message.2 ⟨rfl, hm, rfl⟩⟩
  · constructor
    · rintro ⟨cause, h⟩
      obtain ⟨body, rest, kind, flags, hwhole, hkind, -, hread⟩ := decode_eq_violation_iff.1 h
      obtain ⟨hscalar, hmessage⟩ := read_eq_error.1 ⟨cause, hread⟩
      refine ⟨body, rest, hwhole, ?_, ?_⟩
      · rw [hkind]
        exact fun h => hscalar (Option.some.inj h)
      · rw [hkind]
        exact fun h => hmessage ⟨Option.some.inj h.1, h.2⟩
    · rintro ⟨body, rest, hwhole, hscalar, hmessage⟩
      obtain ⟨kind, flags, a, b, c, d, rfl, -⟩ := whole_iff.1 hwhole
      obtain ⟨cause, hread⟩ : ∃ cause, read kind (flags.toNat.testBit 0) body = .error cause :=
        read_eq_error.2
          ⟨fun h => hscalar (congrArg some h), fun h => hmessage ⟨congrArg some h.1, h.2⟩⟩
      exact ⟨cause, decode_eq_violation_iff.2 ⟨body, rest, kind, flags, hwhole, rfl, rfl, hread⟩⟩

/-- A scalar whose flags have all bits but the lowest set, with an octet behind it, and the same
octets under a limit that does not admit it. -/
theorem decode_grammar_scalar :
    decode 2 [2, 254, 0, 0, 0, 2, 7, 8, 9] = .ok (some (.scalar [7, 8] false, [9])) ∧
    decode 1 [2, 254, 0, 0, 0, 2, 7, 8, 9] = .error (.tooLarge 2 1) := by
  obtain ⟨-, -, hscalar, -⟩ := decode_grammar 2 [2, 254, 0, 0, 0, 2, 7, 8, 9]
  obtain ⟨-, hlarge, -⟩ := decode_grammar 1 [2, 254, 0, 0, 0, 2, 7, 8, 9]
  refine ⟨(hscalar _ _ _).2 ⟨⟨?_, ?_, rfl, rfl⟩, rfl, rfl⟩, (hlarge _ _).2 ⟨?_, ?_, rfl, rfl⟩⟩
  all_goals decide

end Overseer.Frame
