import Overseer.Config
import Overseer.Duration

/-!
# Sums of spans and points of time

A sum has a value as long as it stays in range, and that value is the sum of the nanoseconds; out of
range it is a panic (`Duration.plus_eq_ok_iff`, `Duration.times_eq_ok_iff`, `Instant.plus_eq`). A
clock that is let run for as long as a point is away comes to that point (`Instant.later_since`).
-/

namespace Overseer

/-- What follows something that may panic has an answer if both have. -/
theorem bind_eq_ok_iff {α β : Type} {x : Except Panic α} {f : α → Except Panic β} {b : β} :
    (x >>= f) = .ok b ↔ ∃ a, x = .ok a ∧ f a = .ok b := by
  cases x with
  | error p =>
    constructor
    · intro h
      cases h
    · rintro ⟨a, h, -⟩
      cases h
  | ok a =>
    constructor
    · exact fun h => ⟨a, rfl, h⟩
    · rintro ⟨a', h, hf⟩
      cases h
      exact hf

namespace Duration

/-- What a span is shorter than, in nanoseconds. -/
abbrev bound : Nat := (1 <<< 64) * 1_000_000_000

theorem ofNanos?_eq (n : Nat) : ofNanos? n = if h : n < bound then some ⟨n, h⟩ else none := rfl

/-- A number of nanoseconds that is in range is not cut. -/
theorem nanos_ofNanos {n : Nat} (h : n < bound) : (ofNanos n).nanos = n := by
  rw [ofNanos, ofNanos?_eq, dif_pos h]
  rfl

theorem nanos_ofNanos_eq_min (n : Nat) : (ofNanos n).nanos = min n longest.nanos := by
  by_cases h : n < bound
  · rw [nanos_ofNanos h]
    exact (Nat.min_eq_left (Nat.le_pred_of_lt h)).symm
  · rw [ofNanos, ofNanos?_eq, dif_neg h]
    exact (Nat.min_eq_right (Nat.le_trans (Nat.pred_le _) (Nat.le_of_not_lt h))).symm

theorem ofNanos?_eq_some_iff {n : Nat} {d : Duration} : ofNanos? n = some d ↔ d.nanos = n := by
  rw [ofNanos?_eq]
  constructor
  · intro h
    by_cases hn : n < bound
    · rw [dif_pos hn] at h
      cases h
      rfl
    · rw [dif_neg hn] at h
      cases h
  · rintro rfl
    exact dif_pos d.bounded

theorem plus_eq_ok_iff {a b d : Duration} : a.plus b = .ok d ↔ d.nanos = a.nanos + b.nanos := by
  rw [← ofNanos?_eq_some_iff, plus, add?]
  cases ofNanos? (a.nanos + b.nanos) with
  | none => constructor <;> intro h <;> cases h
  | some => simp only [Except.ok.injEq, Option.some.injEq]

theorem times_eq_ok_iff {n : Nat} {a d : Duration} : times n a = .ok d ↔ d.nanos = n * a.nanos := by
  rw [← ofNanos?_eq_some_iff, times, mul?]
  cases ofNanos? (n * a.nanos) with
  | none => constructor <;> intro h <;> cases h
  | some => simp only [Except.ok.injEq, Option.some.injEq]

end Duration

namespace Instant

/-- What a point is before, in nanoseconds after the clock's origin. -/
abbrev bound : Nat := (1 <<< 63) * 1_000_000_000

theorem ofNanos?_eq (n : Nat) : ofNanos? n = if h : n < bound then some ⟨n, h⟩ else none := rfl

theorem plus_eq (t : Instant) (d : Duration) :
    t.plus d = if h : t.nanos + d.nanos < bound then .ok ⟨t.nanos + d.nanos, h⟩
      else .error (.text "overflow when adding duration to instant") := by
  rw [plus, add?, ofNanos?_eq]
  by_cases h : t.nanos + d.nanos < bound
  · simp only [dif_pos h]
  · simp only [dif_neg h]

theorem nanos_later (t : Instant) (d : Duration) :
    (t.later d).nanos = min (t.nanos + d.nanos) last.nanos := by
  rw [later, add?, ofNanos?_eq]
  by_cases h : t.nanos + d.nanos < bound
  · rw [dif_pos h]
    exact (Nat.min_eq_left (Nat.le_pred_of_lt h)).symm
  · rw [dif_neg h]
    exact (Nat.min_eq_right (Nat.le_trans (Nat.pred_le _) (Nat.le_of_not_lt h))).symm

/-- A point is as far after an earlier one as the span between them says. -/
theorem later_since {t now : Instant} (h : now ≤ t) : now.later (t.since now) = t := by
  have hle : now.nanos ≤ t.nanos := h
  have hspan : (t.since now).nanos = t.nanos - now.nanos := by
    have hshort : t.nanos - now.nanos < bound := Nat.lt_of_le_of_lt (Nat.sub_le _ _) t.bounded
    exact Duration.nanos_ofNanos (Nat.lt_trans hshort (by decide))
  have hsum : now.nanos + (t.since now).nanos = t.nanos := by omega
  rw [later, add?, ofNanos?_eq, hsum, dif_pos t.bounded]
  rfl

end Instant

end Overseer
