import Overseer.Message

/-!
# Streams

A `Stream` is what passes between two peers: octets, each with the descriptors attached to it. One
write makes a stream of its octets whose first octet carries the descriptor (`Stream.tagged`), and
it does so however it is cut into several writes, as long as the descriptor goes with the first of
them (`Stream.tagged_cut`).
-/

namespace Overseer

/-- What a peer sends: octets, each with the descriptors that are attached to it. -/
abbrev Stream := List (UInt8 × List Descriptor)

namespace Stream

/-- The octets of a stream. -/
def octets (s : Stream) : Octets := s.map Prod.fst

/-- The descriptors of a stream, in order. -/
def descriptors (s : Stream) : List Descriptor := s.flatMap Prod.snd

@[simp] theorem octets_nil : octets [] = [] := rfl

@[simp] theorem descriptors_nil : descriptors [] = [] := rfl

@[simp] theorem octets_append (s s' : Stream) : octets (s ++ s') = octets s ++ octets s' :=
  List.map_append

@[simp] theorem descriptors_append (s s' : Stream) :
    descriptors (s ++ s') = descriptors s ++ descriptors s' :=
  List.flatMap_append

@[simp] theorem length_octets (s : Stream) : (octets s).length = s.length := List.length_map _

@[simp] theorem octets_eq_nil {s : Stream} : octets s = [] ↔ s = [] := List.map_eq_nil_iff

/-- A longer part of a stream holds no fewer descriptors. -/
theorem length_descriptors_take_le (s : Stream) {m n : Nat} (h : m ≤ n) :
    (descriptors (s.take m)).length ≤ (descriptors (s.take n)).length := by
  have hsplit : s.take n = s.take m ++ (s.drop m).take (n - m) := by
    rw [← List.take_add, Nat.add_sub_cancel' h]
  rw [hsplit, descriptors_append, List.length_append]
  exact Nat.le_add_right ..

/-- What one write makes of octets and a descriptor: it is attached to the first octet. -/
def tagged : Octets → Option Descriptor → Stream
  | [], _ => []
  | x :: xs, d => (x, d.toList) :: xs.map fun x => (x, [])

/-- A write of nothing carries nothing. -/
@[simp] theorem tagged_nil (d : Option Descriptor) : tagged [] d = [] := rfl

/-- Without a descriptor there is no first octet to look for. -/
theorem tagged_none (xs : Octets) : tagged xs none = xs.map fun x => (x, []) := by
  cases xs <;> rfl

@[simp] theorem octets_tagged (xs : Octets) (d : Option Descriptor) :
    (tagged xs d).octets = xs := by
  cases xs with
  | nil => rfl
  | cons x xs => simp [tagged, octets, Function.comp_def]

/-- The descriptor is there if there is an octet to attach it to. -/
theorem descriptors_tagged {xs : Octets} (hne : xs ≠ []) (d : Option Descriptor) :
    (tagged xs d).descriptors = d.toList := by
  cases xs with
  | nil => exact absurd rfl hne
  | cons x xs => simp [tagged, descriptors]

/-- A stream that carries nothing is what one write makes of its octets. -/
theorem tagged_octets {s : Stream} (h : s.descriptors = []) : tagged s.octets none = s := by
  rw [tagged_none]
  induction s with
  | nil => rfl
  | cons x s ih =>
    obtain ⟨octet, ds⟩ := x
    obtain ⟨rfl, hrest⟩ := List.append_eq_nil_iff.1 (show ds ++ descriptors s = [] from h)
    exact congrArg _ (ih hrest)

/-- **Cutting a write changes nothing**, if the descriptor goes with the first part. -/
theorem tagged_cut (xs : Octets) (d : Option Descriptor) {n : Nat} (hn : n ≠ 0) :
    tagged (xs.take n) d ++ tagged (xs.drop n) none = tagged xs d := by
  cases xs with
  | nil => simp
  | cons x xs =>
    cases n with
    | zero => exact absurd rfl hn
    | succ n =>
      rw [List.take_succ_cons, List.drop_succ_cons, tagged_none, tagged, tagged, List.cons_append,
        ← List.map_append, List.take_append_drop]

/-- A write that goes on without the descriptor continues what was begun with it. -/
theorem tagged_append {xs : Octets} (hne : xs ≠ []) (ys : Octets) (d : Option Descriptor) :
    tagged xs d ++ tagged ys none = tagged (xs ++ ys) d := by
  have hcut := tagged_cut (xs ++ ys) d fun h => hne (List.length_eq_zero_iff.1 h)
  rwa [List.take_left, List.drop_left] at hcut

/-- A front part of a write is a front part of what it makes. -/
theorem tagged_isPrefix {xs front : Octets} (h : front <+: xs) (d : Option Descriptor) :
    tagged front d <+: tagged xs d := by
  obtain ⟨back, rfl⟩ := h
  by_cases hne : front = []
  · rw [hne]
    exact List.nil_prefix
  · rw [← tagged_append hne]
    exact List.prefix_append ..

end Stream

end Overseer
