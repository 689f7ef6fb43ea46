import Overseer.Proofs.Loop.Within

/-!
# Contracts

A contract says of code where it leads from the worlds in which something holds: to an end where
something else holds of the value and the world, or to a halt where a third thing holds
(`Code.Ensures`). Code that is put together has a contract that is put together. What code does at
most (`Code.Within`) is a contract whose three parts are about one invariant.
-/

namespace Overseer

variable {σ α β : Type}

namespace Code

/-- Code that is run where `pre` holds comes to an end where `post` holds, or to a halt where
`halted` does. -/
def Ensures (pre : World σ → Prop) (code : Code σ α) (post : α → World σ → Prop)
    (halted : World σ → Prop) : Prop :=
  ∀ w, pre w →
    match code w with
    | .ok a w' => post a w'
    | .error _ w' => halted w'

section
variable {pre halted halted' : World σ → Prop} {post : α → World σ → Prop} {code : Code σ α}

theorem Ensures.pure {a : α} (h : ∀ w, pre w → post a w) :
    Ensures pre (pure a) post halted := h

theorem Ensures.throw {halt : Halt} (h : ∀ w, pre w → halted w) :
    Ensures pre (throw halt) post halted := h

theorem Ensures.bind {mid : α → World σ → Prop} {f : α → Code σ β} {post : β → World σ → Prop}
    (h : Ensures pre code mid halted) (hf : ∀ a, Ensures (mid a) (f a) post halted) :
    Ensures pre (code >>= f) post halted := by
  intro w hw
  have hfirst := h w hw
  rw [bind_apply]
  cases hrun : code w with
  | ok a w' =>
    rw [hrun] at hfirst
    exact hf a w' hfirst
  | error halt w' =>
    rw [hrun] at hfirst
    exact hfirst

theorem Ensures.get_bind {f : World σ → Code σ α} (h : ∀ w, Ensures pre (f w) post halted) :
    Ensures pre (get >>= f) post halted :=
  fun w hw => h w w hw

theorem Ensures.tryCatch {recover : Halt → Code σ α} (h : Ensures pre code post halted)
    (hrecover : ∀ halt, Ensures halted (recover halt) post halted') :
    Ensures pre (tryCatch code recover) post halted' := by
  intro w hw
  have hfirst := h w hw
  show match EStateM.tryCatch code recover w with
    | .ok a w' => post a w'
    | .error _ w' => halted' w'
  unfold EStateM.tryCatch
  simp only
  cases hrun : code w with
  | ok a w' =>
    rw [hrun] at hfirst
    exact hfirst
  | error halt w' =>
    rw [hrun] at hfirst
    exact hrecover halt w' hfirst

theorem Ensures.forM {xs : List α} {f : α → Code σ Unit}
    (h : ∀ x, Ensures pre (f x) (fun _ => pre) halted) :
    Ensures pre (xs.forM f) (fun _ => pre) halted := by
  induction xs with
  | nil => exact fun w hw => hw
  | cons x xs ih => exact (h x).bind fun _ => ih

/-- What is not needed may be forgotten. -/
theorem Ensures.weaken {post' : α → World σ → Prop} (h : Ensures pre code post halted)
    (hpost : ∀ a w, post a w → post' a w) (hhalted : ∀ w, halted w → halted' w) :
    Ensures pre code post' halted' := by
  intro w hw
  have hrun := h w hw
  cases hcode : code w with
  | ok a w' =>
    rw [hcode] at hrun
    exact hpost a w' hrun
  | error halt w' =>
    rw [hcode] at hrun
    exact hhalted w' hrun

/-- Code that does no more than what a relation has room for. -/
theorem Ensures.of_within {R : World σ → World σ → Prop} {Q : World σ → Prop}
    (h : code.Within R) (hR : ∀ w w', pre w → R w w' → Q w') :
    Ensures pre code (fun _ => Q) Q := by
  intro w hw
  cases hrun : code w with
  | ok a w' => exact hR w w' hw (h.of_ok hrun)
  | error halt w' => exact hR w w' hw (h.of_error hrun)

/-- What holds at the end and at a halt holds afterwards. -/
theorem Ensures.after {Q : World σ → Prop} (h : Ensures pre code (fun _ => Q) Q) {w : World σ}
    (hw : pre w) : Q (code.after w) := by
  have hrun := h w hw
  rw [Code.after]
  cases hcode : code w with
  | ok a w' =>
    rw [hcode] at hrun
    exact hrun
  | error halt w' =>
    rw [hcode] at hrun
    exact hrun

end

end Code

end Overseer
