import Overseer.Proofs.Frame.Stability

/-!
# Every frame that is read has one written form

Whatever `Frame.decode` accepts is what the writers would have written, but for the flags: of that
octet only bit 0 counts, and for a scalar not even that (`Frame.writtenFlags`). The readers of
elements, names and messages are undone one after the other (`eq_of_takeElement`,
`eq_of_readMessage`), and with them the decoder (`written_of_decode`). So the frames of two streams
are the same only if their octets are.
-/

namespace Overseer

namespace Octets

/-- A number is less than what its octets can count. -/
theorem toNat_lt (xs : Octets) : toNat xs < 256 ^ xs.length := by
  induction xs with
  | nil => simp [toNat]
  | cons x xs ih =>
    have hx : x.toNat ≤ 255 := Nat.le_of_lt_succ x.toNat_lt
    have hscaled : x.toNat * 256 ^ xs.length ≤ 255 * 256 ^ xs.length := Nat.mul_le_mul_right _ hx
    rw [toNat_cons, List.length_cons, Nat.pow_succ]
    omega

/-- Octets of one length that write the same number are the same. -/
theorem toNat_injective {xs ys : Octets} (hlength : xs.length = ys.length)
    (h : toNat xs = toNat ys) : xs = ys := by
  induction xs generalizing ys with
  | nil => exact (List.length_eq_zero_iff.1 hlength.symm).symm
  | cons x xs ih =>
    cases ys with
    | nil => cases hlength
    | cons y ys =>
      have hlen : xs.length = ys.length := Nat.succ.inj hlength
      have hxs : toNat xs < 256 ^ xs.length := toNat_lt xs
      have hys : toNat ys < 256 ^ xs.length := hlen ▸ toNat_lt ys
      rw [toNat_cons, toNat_cons, ← hlen, Nat.add_comm, Nat.add_comm (y.toNat * _)] at h
      -- the first octets are the quotients, and the others write the remainders
      have hfirst := congrArg (· / 256 ^ xs.length) h
      have hrest := congrArg (· % 256 ^ xs.length) h
      simp only [Nat.add_mul_div_right _ _ (Nat.zero_lt_of_lt hxs), Nat.div_eq_of_lt hxs,
        Nat.div_eq_of_lt hys, Nat.zero_add] at hfirst
      simp only [Nat.add_mul_mod_self_right, Nat.mod_eq_of_lt hxs, Nat.mod_eq_of_lt hys] at hrest
      rw [UInt8.toNat_inj.1 hfirst, ih hlen hrest]

/-- Octets are written again from the number that they write. -/
theorem bigEndian_toNat {width : Nat} {xs : Octets} (h : xs.length = width) :
    bigEndian width (toNat xs) = xs := by
  refine toNat_injective ((length_bigEndian ..).trans h.symm) (toNat_bigEndian_of_lt ?_)
  rw [← h]
  exact toNat_lt xs

/-- Octets are the UTF-8 form of the text that is read off them. -/
theorem ofText_of_text? {xs : Octets} {s : String} (h : text? xs = some s) : ofText s = xs := by
  unfold text? String.fromUTF8? at h
  split at h
  · cases h
    rfl
  · cases h

end Octets

namespace Frame

variable {limit : Nat} {xs octets rest : Octets} {frame : Frame} {m : Message}

/-! ## Readers, undone -/

/-- An element is taken off its own written form. -/
theorem eq_of_takeElement (h : takeElement octets = .ok (xs, rest)) :
    octets = element xs ++ rest := by
  unfold takeElement at h
  split at h
  · cases h
  · next size more hsize =>
    obtain ⟨rfl, hwidth⟩ := Octets.split?_eq_some.1 hsize
    split at h
    · cases h
    · next hxs =>
      obtain ⟨rfl, hlength⟩ := Octets.split?_eq_some.1 hxs
      cases h
      rw [element, hlength, Octets.bigEndian_toNat hwidth, List.append_assoc]

/-- So are several elements, behind those taken before. -/
theorem eq_of_takeElements {count : Nat} {taken xss : List Octets}
    (h : takeElements count taken octets = .ok (xss, rest)) :
    ∃ more, xss = taken.reverse ++ more ∧ more.length = count ∧
      octets = more.flatMap element ++ rest := by
  induction count generalizing taken octets with
  | zero =>
    cases h
    exact ⟨[], (List.append_nil _).symm, rfl, rfl⟩
  | succ count ih =>
    unfold takeElements at h
    split at h
    · cases h
    · next ys rest' htake =>
      obtain ⟨more, rfl, hcount, hrest⟩ := ih h
      refine ⟨ys :: more, ?_, congrArg _ hcount, ?_⟩
      · rw [List.reverse_cons, List.append_assoc, List.singleton_append]
      · rw [eq_of_takeElement htake, hrest, List.flatMap_cons, List.append_assoc]

/-- A name is read off its UTF-8 form, and is not empty. -/
theorem eq_of_readName {name : String} (h : readName xs = .ok name) :
    xs = Octets.ofText name ∧ name ≠ "" := by
  unfold readName at h
  split at h
  · cases h
  · next htext =>
    split at h
    · cases h
    · next hname =>
      cases h
      exact ⟨(Octets.ofText_of_text? htext).symm, fun h => hname (String.isEmpty_iff.2 h)⟩

/-- **A message is read off its own body**, has a name and elements that two octets count. -/
theorem eq_of_readMessage (h : readMessage octets = .ok m) :
    octets = body m ∧ m.name ≠ "" ∧ m.size ≤ maxElements := by
  unfold readMessage at h
  split at h
  · cases h
  · next count tail hcount =>
    obtain ⟨rfl, hwidth⟩ := Octets.split?_eq_some.1 hcount
    split at h
    · cases h
    · next n hn =>
      split at h
      · cases h
      · next name tail' htake =>
        split at h
        · cases h
        · next name' hname =>
          split at h
          · cases h
          · next args tail'' hargs =>
            split at h
            · next hempty =>
              cases h
              obtain ⟨rfl, hnamed⟩ := eq_of_readName hname
              obtain ⟨args, rfl, rfl, htail⟩ := eq_of_takeElements hargs
              have hsize : Octets.toNat count = args.length + 1 := hn
              have hlt := Octets.toNat_lt count
              rw [hwidth, hsize] at hlt
              refine ⟨?_, hnamed, Nat.le_of_lt_succ hlt⟩
              rw [eq_of_takeElement htake, htail, List.isEmpty_iff.1 hempty, body, Message.size,
                elements, ← Octets.bigEndian_toNat hwidth, hsize, List.append_nil]
              rfl
            · cases h

/-! ## The decoder, undone -/

/-- The frame as it is written, if a limit admits it. -/
def encode (limit : Nat) : Frame → Except ChannelError Octets
  | message m flagged => encodeMessage m flagged limit
  | scalar data _ => encodeScalar data limit

/-- What is left of the flags when a frame is written that was read with them. -/
def writtenFlags (flags : UInt8) : Frame → UInt8
  | message .. => flags &&& 1
  | scalar .. => 0

/-- What is masked out of the flags is their bit 0. -/
theorem flag_eq (flags : UInt8) : flags &&& 1 = if flags.toNat.testBit 0 then 1 else 0 := by
  have hbit : (flags &&& 1).toNat = flags.toNat % 2 := Nat.and_one_is_mod _
  rw [← UInt8.toNat_inj, hbit, Nat.testBit_zero]
  rcases Nat.mod_two_eq_zero_or_one flags.toNat with h | h <;> rw [h] <;> rfl

/-- Bit 0 of the flags is written as it is read. -/
theorem flag_written (flags : UInt8) :
    (if (flags &&& 1 != 0) = true then 1 else 0) = flags &&& 1 := by
  rw [flag_eq]
  cases flags.toNat.testBit 0 <;> rfl

/-- **What is read is what would be written**, up to the flags. -/
theorem written_of_decode (h : decode limit xs = .ok (some (frame, rest))) :
    ∃ kind flags body, xs = kind :: flags :: (Octets.bigEndian 4 body.length ++ body ++ rest) ∧
      frame.encode limit =
        .ok (kind :: frame.writtenFlags flags :: (Octets.bigEndian 4 body.length ++ body)) := by
  obtain ⟨kind, flags, a, b, c, d, octets, rfl, hlength, hsize, hread⟩ := decode_eq_some.1 h
  obtain ⟨hlimit, hmax⟩ := checkSize_eq_ok.1 hsize
  have hfour : Octets.bigEndian 4 octets.length = [a, b, c, d] := by
    rw [hlength]
    exact Octets.bigEndian_toNat rfl
  refine ⟨kind, flags, octets, by rw [hfour]; rfl, ?_⟩
  unfold read at hread
  split at hread
  · next hkind =>
    split at hread
    · cases hread
    · next m hm =>
      cases hread
      obtain ⟨rfl, hnamed, hcount⟩ := eq_of_readMessage hm
      rw [length_body] at hlimit hmax
      refine encodeMessage_eq_ok.2 ⟨⟨hnamed, hcount, hlimit, hmax⟩, ?_⟩
      rw [header, flag_written, hkind, length_body]
      rfl
  · split at hread
    · next hkind =>
      cases hread
      refine encodeScalar_eq_ok.2 ⟨⟨hlimit, hmax⟩, ?_⟩
      rw [header, hkind]
      rfl
    · cases hread

/-- A limit decides whether there is a written form, and not what it is. -/
theorem encode_unique {limit' : Nat} {ys : Octets} (h : frame.encode limit = .ok xs)
    (h' : frame.encode limit' = .ok ys) : xs = ys := by
  cases frame with
  | message m flagged =>
    exact (encodeMessage_eq_ok.1 h).2.symm.trans (encodeMessage_eq_ok.1 h').2
  | scalar data flagged => exact (encodeScalar_eq_ok.1 h).2.symm.trans (encodeScalar_eq_ok.1 h').2

/-- A body is told from the octets in which it stands behind its length. -/
theorem body_injective {body body' : Octets}
    (h : Octets.bigEndian 4 body.length ++ body = Octets.bigEndian 4 body'.length ++ body') :
    body = body' :=
  (List.append_inj h (by rw [Octets.length_bigEndian, Octets.length_bigEndian])).2

/-- **Encoding undoes decoding.** A frame that is taken off a buffer is written again, under the
same limit, as the octets that it was read from; of the second one, the flags, only bit 0 is kept
for a message, and nothing for a scalar. So whoever accepts the same frame, under whatever limit,
has read the same kind and the same body. -/
theorem encode_undoes_decode (limit : Nat) (xs rest : Octets) (frame : Frame)
    (h : decode limit xs = .ok (some (frame, rest))) :
    ∃ kind flags body, xs = kind :: flags :: (Octets.bigEndian 4 body.length ++ body ++ rest) ∧
      frame.encode limit =
        .ok (kind :: frame.writtenFlags flags :: (Octets.bigEndian 4 body.length ++ body)) ∧
      ∀ limit' kind' flags' body' rest',
        decode limit' (kind' :: flags' :: (Octets.bigEndian 4 body'.length ++ body' ++ rest')) =
          .ok (some (frame, rest')) →
        kind' = kind ∧ body' = body := by
  obtain ⟨kind, flags, body, hxs, hencode⟩ := written_of_decode h
  refine ⟨kind, flags, body, hxs, hencode, fun limit' kind' flags' body' rest' h' => ?_⟩
  obtain ⟨kind'', flags'', body'', hys, hencode'⟩ := written_of_decode h'
  injection hys with hkind htail
  injection htail with _ htail
  injection encode_unique hencode hencode' with hkind' hwritten
  injection hwritten with _ hwritten
  have hbody := body_injective (List.append_cancel_right htail)
  exact ⟨hkind.trans hkind'.symm, hbody.trans (body_injective hwritten).symm⟩

/-- A message whose flags have all bits set, with a part of a header behind it. -/
theorem encode_undoes_decode_flags :
    decode 8 [1, 255, 0, 0, 0, 8, 0, 1, 0, 0, 0, 2, 111, 107, 2, 0] =
      .ok (some (.message ⟨"ok", []⟩ true, [2, 0])) ∧
    encode 8 (.message ⟨"ok", []⟩ true) = .ok [1, 1, 0, 0, 0, 8, 0, 1, 0, 0, 0, 2, 111, 107] := by
  have hdecode : decode 8 [1, 255, 0, 0, 0, 8, 0, 1, 0, 0, 0, 2, 111, 107, 2, 0] =
      .ok (some (.message ⟨"ok", []⟩ true, [2, 0])) := by
    have hencodable : Encodable ⟨"ok", []⟩ 8 := ⟨by decide, by decide, by decide, by decide⟩
    have hread : readMessage (body ⟨"ok", []⟩) = .ok ⟨"ok", []⟩ := readMessage_body hencodable
    refine decode_eq_some.2 ⟨1, 255, 0, 0, 0, 8, body ⟨"ok", []⟩, by decide, by decide, ?_, ?_⟩
    · exact checkSize_eq_ok.2 ⟨by decide, by decide⟩
    · rw [read, hread]
      rfl
  obtain ⟨kind, flags, body, hxs, hencode, -⟩ := encode_undoes_decode _ _ _ _ hdecode
  injection hxs with hkind hxs
  injection hxs with hflags hxs
  have hxs : [0, 0, 0, 8, 0, 1, 0, 0, 0, 2, 111, 107] ++ [2, 0] =
      Octets.bigEndian 4 body.length ++ body ++ [2, 0] := hxs
  have hbody := List.append_cancel_right hxs
  refine ⟨hdecode, ?_⟩
  rw [hencode, ← hbody, ← hkind, ← hflags]
  rfl

end Frame

end Overseer
