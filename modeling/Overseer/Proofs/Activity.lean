import Overseer.Activity

/-!
# Terms on which activities share a state

Others have their turn while an activity waits, and whoever plays against it may give them a turn
between any two of its sections. So all that can be said of the state when a section begins is what
everybody keeps up. `Activity.Meets` says of an activity on its own that each of its sections, from
whatever state it may find, does only what it may (`Activity.Terms`). What the activity has still to
do is a ghost value, which changes from section to section.
-/

namespace Overseer.Activity

variable {S T V W α β δ : Type}

/-- The terms on which an activity shares a state, given what it has still to do. -/
structure Terms (δ S : Type) where
  /-- What can be relied on when a section begins. -/
  fits : δ → S → Prop
  /-- What a section may do: what was to be done before it and the state, and the same after it. -/
  may : δ → S → δ → S → Prop

/-- Each section does what it may, and in the end something holds of what is still to be done and of
the answer. -/
def Meets (terms : Terms δ S) (post : δ → α → Prop) : δ → Activity S W α → Prop
  | d, done a => post d a
  | d, step change next => ∀ s, terms.fits d s →
      ∃ d', terms.may d s d' (change s) ∧ Meets terms post d' (next s)
  | d, wait _ next => Meets terms post d next

/-- Each section, from any state, leads to a state in some relation to it, and something holds of
the answer. -/
def Each (R : S → S → Prop) (post : α → Prop) : Activity S W α → Prop :=
  Meets ⟨fun _ _ => True, fun _ s _ s' => R s s'⟩ (fun _ => post) ()

section
variable {terms : Terms δ S} {post : δ → α → Prop} {d : δ}

theorem meets_bind {post' : δ → β → Prop} {x : Activity S W α} {f : α → Activity S W β}
    (hx : Meets terms post d x) (hf : ∀ d' a, post d' a → Meets terms post' d' (f a)) :
    Meets terms post' d (x >>= f) := by
  induction x generalizing d with
  | done a => exact hf d a hx
  | step change next ih =>
    intro s hs
    obtain ⟨d', hmay, hnext⟩ := hx s hs
    exact ⟨d', hmay, ih s hnext⟩
  | wait what next ih => exact ih hx

theorem Meets.imp {post' : δ → α → Prop} {x : Activity S W α} (hx : Meets terms post d x)
    (himp : ∀ d' a, post d' a → post' d' a) : Meets terms post' d x := by
  rw [← Activity.bind_done x]
  exact meets_bind hx himp

/-- A loop, each turn of which does one of the things that are to be done. -/
theorem meets_forM (todo : List β → δ) {f : β → Activity S W Unit}
    (hf : ∀ b rest, Meets terms (fun d _ => d = todo rest) (todo (b :: rest)) (f b))
    (xs : List β) : Meets terms (fun d _ => d = todo []) (todo xs) (xs.forM f) := by
  induction xs with
  | nil => exact (rfl : todo [] = todo [])
  | cons b rest ih =>
    refine meets_bind (hf b rest) ?_
    rintro _ ⟨⟩ rfl
    exact ih

end

section
variable {R : S → S → Prop} {post : α → Prop}

theorem each_pure {a : α} (h : post a) : Each R post (pure a : Activity S W α) := h

theorem each_atOnce {f : StateM S α} (h : ∀ s, R s (f s).2) :
    Each R (fun _ => True) (atOnce f : Activity S W α) := fun s _ => ⟨(), h s, trivial⟩

theorem each_await (what : W) : Each R (fun _ => True) (await what) := trivial

theorem each_bind {post' : β → Prop} {x : Activity S W α} {f : α → Activity S W β}
    (hx : Each R post x) (hf : ∀ a, post a → Each R post' (f a)) : Each R post' (x >>= f) :=
  meets_bind hx fun _ => hf

theorem each_forM {f : β → Activity S W Unit} (hf : ∀ b, Each R (fun _ => True) (f b))
    (xs : List β) : Each R (fun _ => True) (xs.forM f) := by
  induction xs with
  | nil => exact each_pure trivial
  | cons b rest ih => exact each_bind (hf b) fun _ _ => ih

/-- Work on a part of a state leaves what is to be done on the whole as it is, if that may come of
each of its sections. -/
theorem Each.within {x : Activity S W α} (hx : Each R post x) {terms : Terms δ T} {d : δ}
    {look : T → Option S} {put : S → T → T} {await : W → T → V}
    (hput : ∀ t s s', terms.fits d t → look t = some s → R s s' → terms.may d t d (put s' t))
    (hidle : ∀ t, terms.fits d t → terms.may d t d t) :
    Meets terms (fun d' a => d' = d ∧ ∀ b ∈ a, post b) d (x.within look put await) := by
  induction x with
  | done a =>
    refine (⟨rfl, ?_⟩ : d = d ∧ ∀ b ∈ some a, post b)
    rintro _ ⟨⟩
    exact hx
  | step change next ih =>
    rw [Activity.within]
    intro t ht
    cases hlook : look t with
    | none =>
      refine ⟨d, by simpa [hlook] using hidle t ht, ?_⟩
      simp only [hlook]
      exact (⟨rfl, by nofun⟩ : d = d ∧ ∀ b ∈ none, post b)
    | some s =>
      obtain ⟨⟨⟩, hR, hnext⟩ := hx s trivial
      refine ⟨d, by simpa [hlook] using hput t s _ ht hlook hR, ?_⟩
      simp only [hlook]
      exact ih s hnext
  | wait what next ih => exact fun t ht => ⟨d, hidle t ht, ih hx⟩

end

end Overseer.Activity
