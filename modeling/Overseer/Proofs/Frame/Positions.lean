import Overseer.Proofs.Frame.Canonical

/-!
# Frames, read by positions

`Frame.decode` cuts a buffer into pieces and so has no position that could be wrong. A reader of
memory counts: it looks up octets by their index, copies ranges, and adds and subtracts machine
words, and any of these comes to a `Fault` if it is not checked before. `Frame.decodeAt` reads so,
with a position in the body that only goes on, and it comes to no fault on any buffer: it is
`Frame.decode` (`Frame.decodeAt_eq`).

The induction is on the elements of a message. Its invariant is that the position stands where what
is left of the body begins.
-/

namespace Overseer

/-- What brings a reader down that counts its way through memory. -/
inductive Fault where
  /-- There is no octet at an index. -/
  | index
  /-- The ends of a range are the wrong way round, or it ends behind the octets. -/
  | range
  /-- A sum is no machine word. -/
  | overflow
  /-- A difference would be below zero. -/
  | underflow
  deriving DecidableEq

/-- A reading that fails for what is written, or faults for how it is read. -/
abbrev Counted (ε α : Type) := ExceptT ε (Except Fault) α

namespace Counted

variable {ε α β : Type}

/-- What reads without a fault. -/
def sure (r : Except ε α) : Counted ε α := .mk (.ok r)

/-- Something that may fault, and fails in no other way. -/
def risk (r : Except Fault α) : Counted ε α := .mk (r.map .ok)

@[simp] theorem sure_bind_ok (a : α) (f : α → Counted ε β) : (sure (.ok a) >>= f) = f a := rfl

@[simp] theorem sure_bind_error (e : ε) (f : α → Counted ε β) :
    (sure (.error e) >>= f) = sure (.error e) := rfl

@[simp] theorem risk_ok (a : α) : (risk (.ok a) : Counted ε α) = sure (.ok a) := rfl

@[simp] theorem pure_eq (a : α) : (pure a : Counted ε α) = sure (.ok a) := rfl

@[simp] theorem throw_eq (e : ε) : (throw e : Counted ε α) = sure (.error e) := rfl

end Counted

open Counted

/-- The sum of two machine words, of 64 bits. -/
def plus (m n : Nat) : Except Fault Nat :=
  if m + n < 1 <<< 64 then .ok (m + n) else .error .overflow

/-- The difference of two machine words. -/
def minus (m n : Nat) : Except Fault Nat := if n ≤ m then .ok (m - n) else .error .underflow

namespace Octets

/-- The octet at an index. -/
def look (xs : Octets) (i : Nat) : Except Fault UInt8 :=
  match xs[i]? with
  | some x => .ok x
  | none => .error .index

/-- The octets of a range. -/
def range (xs : Octets) (start stop : Nat) : Except Fault Octets :=
  if start ≤ stop ∧ stop ≤ xs.length then .ok ((xs.take stop).drop start) else .error .range

/-- The range between a front part and a rest. -/
theorem range_middle (front body rest : Octets) :
    (front ++ body ++ rest).range front.length (front.length + body.length) = .ok body := by
  have hle : front.length + body.length ≤ (front ++ body ++ rest).length := by
    simp only [List.length_append]
    omega
  have hcopy : ((front ++ body ++ rest).take (front.length + body.length)).drop front.length =
      body := by
    rw [List.append_assoc, List.take_length_add_append, List.drop_left, List.take_left]
  rw [range, if_pos ⟨Nat.le_add_right .., hle⟩, hcopy]

/-- The range behind a front part. -/
theorem range_behind (front rest : Octets) :
    (front ++ rest).range front.length (front ++ rest).length = .ok rest := by
  have h := range_middle front rest []
  rwa [List.append_nil, ← List.length_append] at h

end Octets

namespace Frame

/-! ## The reader -/

/-- Copies the next `n` octets of a body, with the position behind them. An end that is no machine
word lies behind the body too. -/
def copyAt (body : Octets) (position n : Nat) : Counted Violation (Octets × Nat) :=
  match plus position n with
  | .error _ => throw .elementPastEnd
  | .ok stop =>
    if stop ≤ body.length then do
      let xs ← risk (body.range position stop)
      pure (xs, stop)
    else throw .elementPastEnd

/-- Copies the next element. -/
def elementAt (body : Octets) (position : Nat) : Counted Violation (Octets × Nat) := do
  let (length, position) ← copyAt body position 4
  copyAt body position (Octets.toNat length)

/-- Copies so many elements, behind those in `taken`, which stand in reverse. -/
def elementsAt (body : Octets) : Nat → List Octets → Nat → Counted Violation (List Octets × Nat)
  | 0, taken, position => pure (taken.reverse, position)
  | count + 1, taken, position => do
    let (xs, position) ← elementAt body position
    elementsAt body count (xs :: taken) position

/-- Reads the body of a message. -/
def messageAt (body : Octets) : Counted Violation Message := do
  let (count, position) ← copyAt body 0 2
  if Octets.toNat count = 0 then throw .noName
  else do
    let (name, position) ← elementAt body position
    let name ← sure (readName name)
    let others ← risk (minus (Octets.toNat count) 1)
    let (args, position) ← elementsAt body others [] position
    if position = body.length then pure ⟨name, args⟩
    else do
      let left ← risk (minus body.length position)
      throw (.trailing left)

/-- Reads a frame of a known header. -/
def readAt (kind : UInt8) (flagged : Bool) (body : Octets) : Counted Violation Frame :=
  if kind = messageKind then do
    let m ← messageAt body
    pure (.message m flagged)
  else if kind = scalarKind then pure (.scalar body flagged)
  else throw (.unknownKind kind.toNat)

/-- Takes the first frame off a buffer, with what follows it. -/
def decodeAt (limit : Nat) (buffer : Octets) : Counted ChannelError (Option (Frame × Octets)) :=
  if buffer.length < headerSize then pure none
  else do
    let kind ← risk (buffer.look 0)
    let flags ← risk (buffer.look 1)
    let a ← risk (buffer.look 2)
    let b ← risk (buffer.look 3)
    let c ← risk (buffer.look 4)
    let d ← risk (buffer.look 5)
    let size := Octets.toNat [a, b, c, d]
    sure (checkSize size limit)
    let stop ← risk (plus headerSize size)
    if buffer.length < stop then pure none
    else do
      let body ← risk (buffer.range headerSize stop)
      let frame ← (readAt kind (flags &&& 1 != 0) body).adapt .violation
      let rest ← risk (buffer.range stop buffer.length)
      pure (some (frame, rest))

/-! ## It comes to no fault -/

variable {body rest : Octets}

/-- Where what is left of a body begins. -/
def place (body rest : Octets) : Nat := body.length - rest.length

/-- **A copy is the front part of what is left**, if there is as much. -/
theorem copyAt_eq (hbody : body.length < 1 <<< 64) (h : rest <:+ body) (n : Nat) :
    copyAt body (place body rest) n =
      sure (match Octets.split? n rest with
        | none => .error .elementPastEnd
        | some (xs, rest) => .ok (xs, place body rest)) := by
  obtain ⟨front, rfl⟩ := h
  have hplace : place (front ++ rest) rest = front.length := by
    simp [place]
  rw [hplace]
  by_cases hn : n ≤ rest.length
  · have hlength : (rest.take n).length = n := by simp [hn]
    have hsum : front.length + n < 1 <<< 64 := by
      rw [List.length_append] at hbody
      omega
    have hle : front.length + n ≤ (front ++ rest).length := by
      rw [List.length_append]
      omega
    have hcopy : ((front ++ rest).take (front.length + n)).drop front.length = rest.take n := by
      rw [List.take_length_add_append, List.drop_left]
    have hbehind : place (front ++ rest) (rest.drop n) = front.length + n := by
      simp only [place, List.length_append, List.length_drop]
      omega
    simp only [copyAt, plus, if_pos hsum, Octets.range, Nat.le_add_right, hle,
      and_self, if_true, hcopy, risk_ok, sure_bind_ok, pure_eq, Octets.split?, hlength, hbehind]
  · have hlength : (rest.take n).length ≠ n := by
      rw [List.length_take]
      omega
    have hgt : ¬ front.length + n ≤ (front ++ rest).length := by
      rw [List.length_append]
      omega
    simp only [copyAt, plus, Octets.split?, if_neg hlength]
    split
    · rfl
    · next hstop =>
      split at hstop <;> cases hstop
      rw [if_neg hgt]
      rfl

/-- What is left behind a front part. -/
theorem suffix_of_split? {n : Nat} {xs more : Octets} (h : Octets.split? n rest = some (xs, more)) :
    more <:+ rest := by
  obtain ⟨rfl, -⟩ := Octets.split?_eq_some.1 h
  exact List.suffix_append ..

theorem elementAt_eq (hbody : body.length < 1 <<< 64) (h : rest <:+ body) :
    elementAt body (place body rest) =
      sure ((takeElement rest).map fun x => (x.1, place body x.2)) := by
  rw [elementAt, copyAt_eq hbody h, takeElement]
  cases hlength : Octets.split? 4 rest with
  | none => rfl
  | some x =>
    obtain ⟨length, more⟩ := x
    have hmore : more <:+ body := (suffix_of_split? hlength).trans h
    show copyAt body (place body more) (Octets.toNat length) = _
    rw [copyAt_eq hbody hmore]
    show sure _ = sure (Except.map _ (match Octets.split? (Octets.toNat length) more with
      | none => _
      | some (xs, rest) => _))
    cases Octets.split? (Octets.toNat length) more <;> rfl

/-- What is left behind an element. -/
theorem suffix_of_takeElement {xs more : Octets} (h : takeElement rest = .ok (xs, more)) :
    more <:+ rest := by
  unfold takeElement at h
  split at h
  · cases h
  · next hlength =>
    split at h
    · cases h
    · next hxs =>
      cases h
      exact (suffix_of_split? hxs).trans (suffix_of_split? hlength)

/-- **The elements are those of what is left.** -/
theorem elementsAt_eq (hbody : body.length < 1 <<< 64) (h : rest <:+ body) (count : Nat)
    (taken : List Octets) :
    elementsAt body count taken (place body rest) =
      sure ((takeElements count taken rest).map fun x => (x.1, place body x.2)) := by
  induction count generalizing rest taken with
  | zero => rfl
  | succ count ih =>
    rw [elementsAt, elementAt_eq hbody h, takeElements]
    cases htake : takeElement rest with
    | error cause => rfl
    | ok x =>
      obtain ⟨xs, more⟩ := x
      exact ih ((suffix_of_takeElement htake).trans h) (xs :: taken)

/-- What is left behind some elements. -/
theorem suffix_of_takeElements {count : Nat} {taken xss : List Octets} {more : Octets}
    (h : takeElements count taken rest = .ok (xss, more)) : more <:+ rest := by
  induction count generalizing rest taken with
  | zero =>
    cases h
    exact List.suffix_refl _
  | succ count ih =>
    rw [takeElements] at h
    split at h
    · cases h
    · next htake => exact (ih h).trans (suffix_of_takeElement htake)

/-- **The body of a message** is read without a fault. -/
theorem messageAt_eq (hbody : body.length < 1 <<< 64) :
    messageAt body = sure (readMessage body) := by
  have hstart := copyAt_eq hbody (List.suffix_refl body) 2
  rw [place, Nat.sub_self] at hstart
  rw [messageAt, hstart, readMessage]
  cases hcount : Octets.split? 2 body with
  | none => rfl
  | some x =>
    obtain ⟨count, rest⟩ := x
    have hrest : rest <:+ body := suffix_of_split? hcount
    simp only [sure_bind_ok]
    cases hn : Octets.toNat count with
    | zero => rfl
    | succ others =>
      rw [if_neg (Nat.succ_ne_zero _), elementAt_eq hbody hrest]
      cases hname : takeElement rest with
      | error cause => rfl
      | ok x =>
        obtain ⟨name, more⟩ := x
        have hmore : more <:+ body := (suffix_of_takeElement hname).trans hrest
        simp only [Except.map, sure_bind_ok]
        cases readName name with
        | error cause => rfl
        | ok name =>
          have hothers : minus (others + 1) 1 = .ok others := if_pos (Nat.succ_pos _)
          rw [sure_bind_ok, hothers, risk_ok, sure_bind_ok, elementsAt_eq hbody hmore]
          cases helements : takeElements others [] more with
          | error cause => rfl
          | ok x =>
            obtain ⟨args, left⟩ := x
            have hleft : left.length ≤ body.length :=
              ((suffix_of_takeElements helements).trans hmore).length_le
            have hempty : place body left = body.length ↔ left.isEmpty = true := by
              rw [List.isEmpty_iff_length_eq_zero, place]
              omega
            simp only [Except.map, sure_bind_ok, hempty]
            split
            · rfl
            · have htrailing : minus body.length (place body left) = .ok left.length := by
                rw [place, minus, if_pos (Nat.sub_le ..), Nat.sub_sub_self hleft]
              rw [htrailing]
              rfl

theorem readAt_eq (hbody : body.length < 1 <<< 64) (kind : UInt8) (flagged : Bool) :
    readAt kind flagged body = sure (read kind flagged body) := by
  unfold readAt read
  rw [messageAt_eq hbody]
  split
  · cases readMessage body <;> rfl
  · split <;> rfl

/-- Four octets write a number that is far from the largest machine word. -/
theorem toNat_four (a b c d : UInt8) : Octets.toNat [a, b, c, d] + headerSize < 1 <<< 64 := by
  have hsize : Octets.toNat [a, b, c, d] < 256 ^ 4 := Octets.toNat_lt _
  rw [headerSize]
  omega

/-- A buffer has a header if it is long enough for one. -/
theorem header_of_length {buffer : Octets} (h : headerSize ≤ buffer.length) :
    ∃ kind flags a b c d tail, buffer = kind :: flags :: a :: b :: c :: d :: tail := by
  rcases buffer with _ | ⟨kind, _ | ⟨flags, _ | ⟨a, _ | ⟨b, _ | ⟨c, _ | ⟨d, tail⟩⟩⟩⟩⟩⟩
  case cons.cons.cons.cons.cons.cons => exact ⟨_, _, _, _, _, _, _, rfl⟩
  all_goals simp [headerSize] at h

/-- **Reading by positions comes to no fault**, and to what cutting the buffer comes to. -/
theorem decodeAt_eq (limit : Nat) (buffer : Octets) :
    decodeAt limit buffer = sure (decode limit buffer) := by
  unfold decode
  split
  · next kind flags a b c d tail =>
    have hlong : ¬ (kind :: flags :: a :: b :: c :: d :: tail).length < headerSize :=
      Nat.not_lt.2 (Nat.le_add_left ..)
    have hword := toNat_four a b c d
    rw [decodeAt, if_neg hlong]
    simp only [Octets.look, List.getElem?_cons_zero, List.getElem?_cons_succ, risk_ok, sure_bind_ok]
    generalize Octets.toNat [a, b, c, d] = size at hword ⊢
    cases checkSize size limit with
    | error e => rfl
    | ok =>
      have hstop : plus headerSize size = .ok (headerSize + size) :=
        if_pos (Nat.add_comm .. ▸ hword)
      simp only [sure_bind_ok, hstop, risk_ok]
      cases hsplit : Octets.split? size tail with
      | none =>
        have hshort : tail.length < size := Octets.split?_eq_none.1 hsplit
        rw [if_pos]
        · rfl
        · simp only [List.length_cons, headerSize]
          omega
      | some x =>
        obtain ⟨body, rest⟩ := x
        obtain ⟨rfl, rfl⟩ := Octets.split?_eq_some.1 hsplit
        have hbody : Octets.range (kind :: flags :: a :: b :: c :: d :: (body ++ rest)) headerSize
            (headerSize + body.length) = .ok body :=
          Octets.range_middle [kind, flags, a, b, c, d] body rest
        have hrest : Octets.range (kind :: flags :: a :: b :: c :: d :: (body ++ rest))
            (headerSize + body.length)
            (kind :: flags :: a :: b :: c :: d :: (body ++ rest)).length = .ok rest := by
          rw [Nat.add_comm]
          exact Octets.range_behind (kind :: flags :: a :: b :: c :: d :: body) rest
        have hle : ¬ (kind :: flags :: a :: b :: c :: d :: (body ++ rest)).length <
            headerSize + body.length := by
          simp only [List.length_cons, List.length_append, headerSize]
          omega
        rw [if_neg hle, hbody, risk_ok, sure_bind_ok,
          readAt_eq (Nat.lt_of_le_of_lt (Nat.le_add_right ..) hword), hrest]
        cases hread : read kind (flags &&& 1 != 0) body with
        | error cause =>
          simp only [hread]
          rfl
        | ok frame =>
          simp only [hread]
          rfl
  · next hnone =>
    have hshort : buffer.length < headerSize := Nat.lt_of_not_le fun hlong => by
      obtain ⟨kind, flags, a, b, c, d, tail, h⟩ := header_of_length hlong
      exact hnone _ _ _ _ _ _ _ h
    rw [decodeAt, if_pos hshort]
    rfl

end Frame

end Overseer
