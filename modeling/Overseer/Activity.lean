/-!
# Activities

An `Activity` goes on over some time. It works on a state, in sections that nothing else comes
between, and now and then it waits for something. So several activities can share a state: each goes
on as far as it can (`Activity.proceed`), and the others have their turn while it waits.

An activity that has its state to itself is a function (`Activity.run`). That is what `proceed`
makes of it, too, where nothing has to be waited for (`proceed_eq_run`).
-/

namespace Overseer

/-- What is done over some time on a state `S`, with waits for a `W`, and its answer in the end. -/
inductive Activity (S W α : Type) where
  /-- It is over. -/
  | done (answer : α)
  /-- The state changes, and what comes next is up to the state before the change. -/
  | step (change : S → S) (next : S → Activity S W α)
  /-- It waits, and goes on after that. -/
  | wait (what : W) (next : Activity S W α)

namespace Activity

variable {S T V W α β γ : Type}

/-- One activity after another. -/
protected def bind : Activity S W α → (α → Activity S W β) → Activity S W β
  | done a, f => f a
  | step change next, f => step change fun s => (next s).bind f
  | wait what next, f => wait what (next.bind f)

instance : Monad (Activity S W) where
  pure := done
  bind := Activity.bind

/-- Does something at once, in a single section. -/
def atOnce (f : StateM S α) : Activity S W α := step (fun s => (f s).2) fun s => done (f s).1

instance : MonadStateOf S (Activity S W) where
  get := atOnce get
  set s := atOnce (set s)
  modifyGet f := atOnce (modifyGet f)

/-- Waits for something. -/
def await (what : W) : Activity S W Unit := wait what (done ())

@[simp] theorem pure_eq (a : α) : (pure a : Activity S W α) = done a := rfl

@[simp] theorem done_bind (a : α) (f : α → Activity S W β) : (done a >>= f) = f a := rfl

@[simp] theorem step_bind (change : S → S) (next : S → Activity S W α) (f : α → Activity S W β) :
    (step change next >>= f) = step change fun s => next s >>= f := rfl

@[simp] theorem wait_bind (what : W) (next : Activity S W α) (f : α → Activity S W β) :
    (wait what next >>= f) = wait what (next >>= f) := rfl

protected theorem bind_done (x : Activity S W α) : (x >>= done) = x := by
  induction x with
  | done => rfl
  | step change next ih => simp [ih]
  | wait what next ih => simp [ih]

protected theorem bind_assoc (x : Activity S W α) (f : α → Activity S W β)
    (g : β → Activity S W γ) :
    (x >>= f >>= g) = x >>= fun a => f a >>= g := by
  induction x with
  | done => rfl
  | step change next ih => simp [ih]
  | wait what next ih => simp [ih]

instance : LawfulMonad (Activity S W) :=
  LawfulMonad.mk' _ Activity.bind_done (fun _ _ => rfl) Activity.bind_assoc

/-! ### An activity on its own -/

/-- What comes of an activity on its own, given what a wait does to the state. -/
def run (pass : W → S → S) : Activity S W α → StateM S α
  | done a, s => (a, s)
  | step change next, s => (next s).run pass (change s)
  | wait what next, s => next.run pass (pass what s)

theorem run_bind (pass : W → S → S) (x : Activity S W α) (f : α → Activity S W β) (s : S) :
    (x >>= f).run pass s = (f (x.run pass s).1).run pass (x.run pass s).2 := by
  induction x generalizing s with
  | done => rfl
  | step change next ih => exact ih s (change s)
  | wait what next ih => exact ih (pass what s)

@[simp] theorem run_atOnce (pass : W → S → S) (f : StateM S α) :
    (atOnce f : Activity S W α).run pass = f := rfl

/-! ### Activities among others -/

/-- Goes on as far as it can. A wait is over when it is granted, which may change the state. -/
def proceed (grant : W → S → Option S) : Activity S W α → S → Activity S W α × S
  | done a, s => (done a, s)
  | step change next, s => (next s).proceed grant (change s)
  | wait what next, s =>
    match grant what s with
    | some s => next.proceed grant s
    | none => (wait what next, s)

theorem proceed_eq_run (pass : W → S → S) (x : Activity S W α) (s : S) :
    x.proceed (fun w s => some (pass w s)) s = (done (x.run pass s).1, (x.run pass s).2) := by
  induction x generalizing s with
  | done => rfl
  | step change next ih => exact ih s (change s)
  | wait what next ih => exact ih (pass what s)

/-- What it waits for. -/
def awaited? : Activity S W α → Option W
  | wait what _ => some what
  | _ => none

/-- An activity on a part of a state. There is no answer if that part is not there, and the waits
are put in terms of the whole. -/
def within (look : S → Option T) (put : T → S → S) (await : W → S → V) :
    Activity T W α → Activity S V (Option α)
  | done a => done (some a)
  | step change next =>
    step (fun s => (look s).elim s fun t => put (change t) s) fun s =>
      match look s with
      | some t => (next t).within look put await
      | none => done none
  | wait what next => step id fun s => wait (await what s) (next.within look put await)

end Activity

end Overseer
