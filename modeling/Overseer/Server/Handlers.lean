import Overseer.Text.Quoted

/-!
# Tables of handlers

The handlers of a server by name. A name has one handler, the last one that was registered for it,
and the names are held in order.
-/

namespace Overseer

/-- Handlers by name, in the order of the names. -/
structure Handlers (η : Type) where
  entries : List (String × η) := []

namespace Handlers

variable {η : Type}

/-- Puts a handler in its place among ordered entries. -/
def place (name : String) (handler : η) : List (String × η) → List (String × η)
  | [] => [(name, handler)]
  | (other, h) :: entries =>
    if name < other then (name, handler) :: (other, h) :: entries
    else if name = other then (name, handler) :: entries
    else (other, h) :: place name handler entries

/-- Registers a handler. It replaces the one of the same name. -/
def on (t : Handlers η) (name : String) (handler : η) : Handlers η :=
  ⟨place name handler t.entries⟩

/-- A table of handlers that are registered one after the other. -/
def ofList (handlers : List (String × η)) : Handlers η :=
  handlers.foldl (fun t (name, handler) => t.on name handler) {}

/-- The handler of a name. -/
def get? (t : Handlers η) (name : String) : Option η := t.entries.lookup name

/-- Whether a name has a handler. -/
def contains (t : Handlers η) (name : String) : Bool := (t.get? name).isSome

/-- The names that have handlers, in order. -/
def names (t : Handlers η) : List String := t.entries.map Prod.fst

/-- The number of names that have handlers. -/
def size (t : Handlers η) : Nat := t.entries.length

/-- Whether no name has a handler. -/
def isEmpty (t : Handlers η) : Bool := t.entries.isEmpty

/-- The written form of a table. -/
def describe (t : Handlers η) : String := Text.set (t.names.map Text.quoted)

/-- The written form of a table with a line for each name. -/
def describeOver (t : Handlers η) : String := Text.setOver (t.names.map Text.quoted)

private theorem lookup_cons (name asked : String) (handler : η) (entries : List (String × η)) :
    ((name, handler) :: entries).lookup asked =
      if asked = name then some handler else entries.lookup asked := by
  by_cases h : asked = name
  · simp [h]
  · simp only [List.lookup_cons, beq_eq_false_iff_ne.2 h, if_neg h]

theorem lookup_place (name asked : String) (handler : η) (entries : List (String × η)) :
    (place name handler entries).lookup asked =
      if asked = name then some handler else entries.lookup asked := by
  induction entries with
  | nil => simp [place, lookup_cons]
  | cons entry entries ih =>
    obtain ⟨other, h⟩ := entry
    simp only [place]
    split
    · simp [lookup_cons]
    · split
      · next ho =>
        subst ho
        simp only [lookup_cons]
        split <;> rfl
      · next ho =>
        simp only [lookup_cons, ih]
        split
        · next hn => rw [if_neg (hn ▸ Ne.symm ho)]
        · rfl

/-- A name has the handler that was registered for it last. -/
theorem get?_on (t : Handlers η) (name asked : String) (handler : η) :
    (t.on name handler).get? asked = if asked = name then some handler else t.get? asked :=
  lookup_place ..

end Handlers

end Overseer
