import Mathlib.Algebra.GroupWithZero.Nat
import Overseer.Octets

/-!
# Octet strings, read back

What the writers of `Overseer.Octets` write, the readers read. A number in `width` octets is read
back modulo `256 ^ width` (`Octets.toNat_bigEndian`), and exactly if it fits; a text is read back
from its UTF-8 form (`Octets.text?_ofText`).
-/

namespace Overseer.Octets

/-! ## Cutting -/

/-- The front of a string is taken off at its own length. -/
theorem split?_append (front rest : Octets) :
    split? front.length (front ++ rest) = some (front, rest) :=
  split?_eq_some.2 ⟨rfl, rfl⟩

/-- A string is not split before it is long enough. -/
theorem split?_eq_none {n : Nat} {xs : Octets} : split? n xs = none ↔ xs.length < n := by
  simp only [split?, List.length_take]
  split
  · next h => exact iff_of_false (Option.some_ne_none _) (by omega)
  · next h => exact iff_of_true rfl (by omega)

/-! ## Numbers -/

/-- The value of a string, started at a number that stands in front of it. -/
theorem foldl_toNat (xs : Octets) (start : Nat) :
    xs.foldl (fun n x => n * 256 + x.toNat) start = start * 256 ^ xs.length + toNat xs := by
  induction xs generalizing start with
  | nil => simp [toNat]
  | cons x xs ih =>
    have hvalue : toNat (x :: xs) = x.toNat * 256 ^ xs.length + toNat xs := by
      rw [toNat, List.foldl_cons, ih, Nat.zero_mul, Nat.zero_add]
    rw [List.foldl_cons, ih, hvalue, List.length_cons, Nat.pow_succ, Nat.add_mul, Nat.mul_assoc,
      Nat.mul_comm 256, Nat.add_assoc]

/-- The first octet counts for as many places as there are octets behind it. -/
theorem toNat_cons (x : UInt8) (xs : Octets) :
    toNat (x :: xs) = x.toNat * 256 ^ xs.length + toNat xs := by
  rw [toNat, List.foldl_cons, foldl_toNat, Nat.zero_mul, Nat.zero_add]

/-- A number is read back modulo what its octets can hold. -/
theorem toNat_bigEndian (width n : Nat) : toNat (bigEndian width n) = n % 256 ^ width := by
  induction width with
  | zero => simp [bigEndian, toNat, Nat.mod_one]
  | succ width ih =>
    have hdigit : (UInt8.ofNat (n >>> (8 * width))).toNat = n / 256 ^ width % 256 := by
      rw [UInt8.toNat_ofNat', Nat.shiftRight_eq_div_pow, Nat.pow_mul]
    rw [bigEndian, toNat_cons, ih, length_bigEndian, hdigit, Nat.pow_succ, Nat.mod_mul,
      Nat.mul_comm (256 ^ width), Nat.add_comm]

/-- A number that fits is read back. -/
theorem toNat_bigEndian_of_lt {width n : Nat} (h : n < 256 ^ width) :
    toNat (bigEndian width n) = n := by
  rw [toNat_bigEndian, Nat.mod_eq_of_lt h]

/-! ## Texts -/

/-- The UTF-8 form of a text is as long as the text says. -/
@[simp] theorem length_ofText (s : String) : (ofText s).length = s.utf8ByteSize := by
  rw [ofText, String.toUTF8_eq_toByteArray, Array.length_toList]
  exact String.size_toByteArray

/-- A text is read back from its UTF-8 form. -/
@[simp] theorem text?_ofText (s : String) : text? (ofText s) = some s := by
  have hbytes : (⟨(ofText s).toArray⟩ : ByteArray) = s.toByteArray := by
    simp [ofText]
  rw [text?, hbytes, String.fromUTF8?, dif_pos s.isValidUTF8]
  rfl

end Overseer.Octets
