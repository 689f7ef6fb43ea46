/-!
# Octet strings

What a stream carries: a list of octets, cut and joined at any place. `Octets.split?` takes a
front part off, `Octets.bigEndian` and `Octets.toNat` write and read numbers of a fixed width,
`Octets.ofText` and `Octets.text?` pass between text and its UTF-8 form, and `Octets.hex` and
`Octets.ofHex` write and read a string as digits. `total` measures what is made of several strings.
-/

namespace Overseer

/-- What the elements of a list weigh together. -/
def total {α : Type} (weight : α → Nat) (xs : List α) : Nat := (xs.map weight).foldr (· + ·) 0

@[simp] theorem total_nil {α : Type} (weight : α → Nat) : total weight [] = 0 := rfl

@[simp] theorem total_cons {α : Type} (weight : α → Nat) (x : α) (xs : List α) :
    total weight (x :: xs) = weight x + total weight xs := rfl

@[simp] theorem total_append {α : Type} (weight : α → Nat) (xs ys : List α) :
    total weight (xs ++ ys) = total weight xs + total weight ys := by
  induction xs with
  | nil => simp
  | cons x xs ih => simp [ih, Nat.add_assoc]

/-- A string of octets. -/
abbrev Octets := List UInt8

namespace Octets

/-- The UTF-8 form of a text. -/
def ofText (s : String) : Octets := s.toUTF8.data.toList

/-- The text whose UTF-8 form the octets are, if they are one. -/
def text? (xs : Octets) : Option String := String.fromUTF8? ⟨xs.toArray⟩

/-- The first `n` octets and the rest, if there are that many. The front part is measured after it
is cut off, so a long rest is never walked. -/
def split? (n : Nat) (xs : Octets) : Option (Octets × Octets) :=
  let front := xs.take n
  if front.length = n then some (front, xs.drop n) else none

/-- The number `n` in `width` octets, most significant first. -/
def bigEndian : Nat → Nat → Octets
  | 0, _ => []
  | width + 1, n => UInt8.ofNat (n >>> (8 * width)) :: bigEndian width n

/-- The number that octets write, most significant first. -/
def toNat (xs : Octets) : Nat := xs.foldl (fun n x => n * 256 + x.toNat) 0

/-- An octet in two lower-case hexadecimal digits. -/
private def hexPair (x : UInt8) : List Char :=
  [Nat.digitChar (x.toNat / 16), Nat.digitChar (x.toNat % 16)]

/-- Octets in lower-case hexadecimal digits. -/
def hex (xs : Octets) : String := String.ofList (xs.flatMap hexPair)

/-- The value of a lower-case hexadecimal digit. -/
private def digitValue (c : Char) : Nat := if c.isDigit then c.toNat - 48 else c.toNat - 87

/-- The octets that pairs of lower-case hexadecimal digits write. -/
def ofHex : List Char → Octets
  | a :: b :: rest => UInt8.ofNat (digitValue a * 16 + digitValue b) :: ofHex rest
  | _ => []

@[simp] theorem length_bigEndian (width n : Nat) : (bigEndian width n).length = width := by
  induction width with
  | zero => rfl
  | succ width ih => simp [bigEndian, ih]

/-- What `split?` returns are the two parts of the string, the first of the length asked for. -/
theorem split?_eq_some {n : Nat} {xs front rest : Octets} :
    split? n xs = some (front, rest) ↔ xs = front ++ rest ∧ front.length = n := by
  simp only [split?]
  constructor
  · intro h
    split at h
    · next hn =>
      obtain ⟨rfl, rfl⟩ := by simpa using h
      exact ⟨(List.take_append_drop n xs).symm, hn⟩
    · cases h
  · rintro ⟨rfl, rfl⟩
    simp

end Octets

end Overseer
