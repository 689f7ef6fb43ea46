import Overseer.Text.Quoted

/-!
# Descriptors to keep

The descriptors that survive the sweep of a new child. A `KeepList` is a set of numbers, held in
ascending order.
-/

namespace Overseer

/-- A set of descriptor numbers. -/
structure KeepList where
  numbers : List Int := []
  deriving DecidableEq, Inhabited

namespace KeepList

/-- Puts a number in its place in an ascending list, once. -/
def place (n : Int) : List Int → List Int
  | [] => [n]
  | m :: ms => if n < m then n :: m :: ms else if n = m then m :: ms else m :: place n ms

/-- Keeps one more descriptor. -/
def keep (k : KeepList) (n : Int) : KeepList := ⟨place n k.numbers⟩

/-- Keeps several more descriptors. -/
def keepAll (k : KeepList) (ns : List Int) : KeepList := ns.foldl keep k

/-- Whether a descriptor is kept. -/
def contains (k : KeepList) (n : Int) : Bool := k.numbers.contains n

/-- The written form of a keep list. -/
def describe (k : KeepList) : String :=
  Text.struct "KeepList" [("fds", Text.set (k.numbers.map toString))] false

theorem mem_place {m n : Int} {ns : List Int} : m ∈ place n ns ↔ m = n ∨ m ∈ ns := by
  induction ns with
  | nil => simp [place]
  | cons k ks ih =>
    simp only [place]
    split
    · simp
    · split
      · simp_all
      · simp [ih, or_left_comm]

/-- A list keeps what it kept, and the number put into it. -/
@[simp] theorem contains_keep (k : KeepList) (m n : Int) :
    (k.keep n).contains m = (m == n || k.contains m) := by
  rw [Bool.eq_iff_iff]
  simp [keep, contains, mem_place]

end KeepList

end Overseer
