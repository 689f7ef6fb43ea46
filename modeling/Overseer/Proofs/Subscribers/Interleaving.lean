import Overseer.Proofs.Subscribers.Worker

/-!
# Handing events to many subscribers

A set hands each event to all of its workers, and each worker works on its own. What happens at one
worker changes that worker alone, and it is all that decides what is published on the way
(`act_acts`). So in any interleaving of what happens at the workers, each of them goes through its
own part of it (`getElem?_advanceAll`) and publishes what it would publish by itself
(`own_notices`). Nobody is affected by what the others do.
-/

namespace Overseer

variable {α : Type}

/-- The entries of a list that belong to one number. -/
def own (i : Nat) (xs : List (Nat × α)) : List α :=
  xs.filterMap fun (j, x) => if j = i then some x else none

theorem own_cons (i j : Nat) (x : α) (xs : List (Nat × α)) :
    own i ((j, x) :: xs) = if j = i then x :: own i xs else own i xs := by
  rw [own, List.filterMap_cons]
  by_cases hij : j = i
  · simp only [if_pos hij]
    rfl
  · simp only [if_neg hij]
    rfl

theorem own_append (i : Nat) (xs ys : List (Nat × α)) : own i (xs ++ ys) = own i xs ++ own i ys :=
  List.filterMap_append

/-- What is handed to all is handed once to each. -/
theorem own_range (n i : Nat) (x : α) (hi : i < n) :
    own i ((List.range n).map fun j => (j, x)) = [x] := by
  have hothers (n : Nat) (hle : n ≤ i) : own i ((List.range n).map fun j => (j, x)) = [] := by
    rw [own, List.filterMap_eq_nil_iff]
    intro y hy
    obtain ⟨j, hj, rfl⟩ := List.mem_map.1 hy
    exact if_neg (by rw [List.mem_range] at hj; omega)
  induction n with
  | zero => cases hi
  | succ n ih =>
    rw [List.range_succ, List.map_append, own_append]
    by_cases heq : n = i
    · rw [hothers n (Nat.le_of_eq heq)]
      simp [own, heq]
    · rw [ih (by omega)]
      simp [own, heq]

namespace SubscriberSet

variable {s : SubscriberSet} {ws : List Worker} {i : Nat}

/-! ## What happens at one worker -/

/-- The set after something happened at one worker. -/
def act (s : SubscriberSet) : Nat × Worker.Step → SubscriberSet
  | (i, .offer e) => s.emitTo e i
  | (i, .takeUp) => s.takeUp i
  | (i, .finish) => s.finish i

/-- The workers after something happened at one of them. -/
def advance (ws : List Worker) (x : Nat × Worker.Step) : List Worker :=
  ws.modify x.1 fun w => w.step x.2

/-- What is published when something happens at a worker, with the number of the worker. -/
def notice (ws : List Worker) (x : Nat × Worker.Step) : List (Nat × Event) :=
  (ws[x.1]?.bind fun w => w.report x.2).toList.map fun e => (x.1, e)

theorem advance_of_none {st : Worker.Step} (h : ws[i]? = none) : advance ws (i, st) = ws := by
  exact List.modify_eq_self (List.getElem?_eq_none_iff.1 h)

theorem advance_of_some {w : Worker} {st : Worker.Step} (h : ws[i]? = some w) :
    advance ws (i, st) = ws.set i (w.step st) := by
  rw [advance, List.modify_eq_set, h]
  rfl

theorem getElem?_advance (ws : List Worker) (j : Nat) (st : Worker.Step) (i : Nat) :
    (advance ws (j, st))[i]? = ws[i]?.map fun w => if j = i then w.step st else w := by
  rw [advance, List.getElem?_modify]
  rfl

/-- What is published belongs to the worker where something happens. -/
theorem own_notice (ws : List Worker) (j : Nat) (st : Worker.Step) (i : Nat) :
    own i (notice ws (j, st)) =
      if j = i then (ws[i]?.bind fun w => w.report st).toList else [] := by
  by_cases hij : j = i
  · subst hij
    rw [if_pos rfl, notice]
    cases ws[j]?.bind fun w => w.report st with
    | none => rfl
    | some e => simp [own]
  · rw [if_neg hij, notice]
    cases ws[j]?.bind fun w => w.report st with
    | none => rfl
    | some e => simp [own, hij]

/-- A step that does not change its worker changes nothing. -/
theorem advance_of_same {w : Worker} {st : Worker.Step} (h : ws[i]? = some w)
    (hsame : w.step st = w) : advance ws (i, st) = ws := by
  obtain ⟨hi, hw⟩ := List.getElem?_eq_some_iff.1 h
  rw [advance_of_some h, hsame, ← hw, List.set_getElem_self]

/-- What comes of something that happens at a worker: the worker goes on, and what that says is
published. -/
structure Acts (s : SubscriberSet) (x : Nat × Worker.Step) (s' : SubscriberSet) : Prop where
  workers_eq : s'.workers = advance s.workers x
  bus_eq : s'.bus = s.bus.publishAll ((notice s.workers x).map Prod.snd)
  listeners_eq : s'.listeners = s.listeners

theorem Acts.of_none {st : Worker.Step} (h : s.workers[i]? = none) : Acts s (i, st) s := by
  refine ⟨(advance_of_none h).symm, ?_, rfl⟩
  rw [notice, h]
  rfl

theorem emitTo_acts (s : SubscriberSet) (e : Event) (i : Nat) :
    Acts s (i, .offer e) (s.emitTo e i) := by
  rw [emitTo]
  split
  · next h => exact .of_none h
  · next w hw =>
    by_cases hroom : (w.alive && w.hasRoom) = true
    · have hroom' := hroom
      rw [Bool.and_eq_true] at hroom'
      rw [Worker.offer_of_room hroom'.1 hroom'.2]
      refine ⟨?_, ?_, rfl⟩
      · rw [advance_of_some hw, Worker.step, Worker.offer_of_room hroom'.1 hroom'.2]
        rfl
      · rw [notice, hw, Option.bind_some, Worker.report, Worker.refusalReport, hroom]
        rfl
    · have hrefused := Worker.offer_of_no_room (e := e) (Bool.eq_false_iff.2 hroom)
      have hsame : w.step (.offer e) = w := by rw [Worker.step, hrefused]
      rw [hrefused]
      simp only
      split
      · next hoverflow =>
        refine ⟨(advance_of_same hw hsame).symm, ?_, rfl⟩
        rw [notice, hw, Option.bind_some, Worker.report, Worker.refusalReport, hoverflow,
          Bool.or_true, if_pos rfl]
        rfl
      · next hoverflow =>
        refine ⟨(advance_of_same hw hsame).symm, ?_, rfl⟩
        have hreport : ¬ ((w.alive && w.hasRoom) || e.isOverflow) = true := by
          rw [Bool.or_eq_true]
          exact not_or.2 ⟨hroom, hoverflow⟩
        rw [notice, hw, Option.bind_some, Worker.report, Worker.refusalReport, if_neg hreport]
        rfl

theorem takeUp_acts (s : SubscriberSet) (i : Nat) : Acts s (i, .takeUp) (s.takeUp i) := by
  rw [takeUp]
  split
  · next h => exact .of_none h
  · next w hw =>
    have hbus : s.bus = s.bus.publishAll ((notice s.workers (i, .takeUp)).map Prod.snd) := by
      rw [notice, hw]
      rfl
    split
    · next e queue hcurrent hqueue =>
      refine ⟨?_, hbus, rfl⟩
      rw [advance_of_some hw, Worker.step, Worker.takenUp, hcurrent, hqueue]
    · next hnone =>
      refine ⟨(advance_of_same hw ?_).symm, hbus, rfl⟩
      rw [Worker.step, Worker.takenUp]
      split
      · next e queue hcurrent hqueue => exact absurd hqueue (hnone e queue hcurrent)
      · rfl

theorem finish_acts (s : SubscriberSet) (i : Nat) : Acts s (i, .finish) (s.finish i) := by
  unfold finish
  split
  · next h => exact .of_none h
  · next w hw =>
    split
    · next hcurrent =>
      have hsame : w.step .finish = w := Worker.finished_of_none hcurrent
      refine ⟨(advance_of_same hw hsame).symm, ?_, rfl⟩
      rw [notice, hw, Option.bind_some, Worker.report, hcurrent]
      rfl
    · next e hcurrent =>
      have hworkers : advance s.workers (i, .finish) = s.workers.set i (w.step .finish) :=
        advance_of_some hw
      have hnotice : notice s.workers (i, .finish) =
          (Worker.panicReport w.subscriber w.handled e).toList.map fun e => (i, e) := by
        rw [notice, hw, Option.bind_some, Worker.report, hcurrent, Option.bind_some]
      rw [Worker.step, Worker.finished, hcurrent] at hworkers
      rw [Worker.panicReport] at hnotice
      simp only at hworkers ⊢
      split
      all_goals
        next hreaction =>
        rw [hreaction] at hworkers hnotice
        refine ⟨hworkers.symm, ?_, rfl⟩
        rw [hnotice]
        rfl

/-- **What happens at one worker** changes that worker, and what it says is published. -/
theorem act_acts (s : SubscriberSet) (x : Nat × Worker.Step) : Acts s x (s.act x) := by
  obtain ⟨i, st⟩ := x
  cases st with
  | offer e => exact emitTo_acts s e i
  | takeUp => exact takeUp_acts s i
  | finish => exact finish_acts s i

/-! ## What happens at all of them -/

/-- The set after some things happened. -/
def actAll (s : SubscriberSet) (xs : List (Nat × Worker.Step)) : SubscriberSet := xs.foldl act s

/-- The workers after some things happened. -/
def advanceAll (ws : List Worker) (xs : List (Nat × Worker.Step)) : List Worker :=
  xs.foldl advance ws

/-- What is published when some things happen, each with the number of the worker. -/
def notices (ws : List Worker) : List (Nat × Worker.Step) → List (Nat × Event)
  | [] => []
  | x :: xs => notice ws x ++ notices (advance ws x) xs

/-- **What is published** when some things happen is what they say, in that order, and nothing else
changes than the workers. -/
theorem actAll_eq (s : SubscriberSet) (xs : List (Nat × Worker.Step)) :
    (s.actAll xs).workers = advanceAll s.workers xs ∧
      (s.actAll xs).bus = s.bus.publishAll ((notices s.workers xs).map Prod.snd) ∧
      (s.actAll xs).listeners = s.listeners := by
  induction xs generalizing s with
  | nil => exact ⟨rfl, rfl, rfl⟩
  | cons x xs ih =>
    have hx := act_acts s x
    obtain ⟨hworkers, hbus, hlisteners⟩ := ih (s.act x)
    rw [hx.workers_eq] at hworkers hbus
    rw [hx.bus_eq] at hbus
    refine ⟨hworkers, hbus.trans ?_, hlisteners.trans hx.listeners_eq⟩
    rw [notices, List.map_append, Bus.publishAll, Bus.publishAll, Bus.publishAll, List.foldl_append]

/-- **Each worker goes through its own part** of what happens. -/
theorem getElem?_advanceAll (ws : List Worker) (xs : List (Nat × Worker.Step)) (i : Nat) :
    (advanceAll ws xs)[i]? = ws[i]?.map fun w => w.play (own i xs) := by
  induction xs generalizing ws with
  | nil =>
    show ws[i]? = _
    cases ws[i]? <;> rfl
  | cons x xs ih =>
    obtain ⟨j, st⟩ := x
    show (advanceAll (advance ws (j, st)) xs)[i]? = _
    rw [ih, getElem?_advance, own_cons, Option.map_map]
    by_cases hij : j = i
    · simp only [hij, if_true]
      rfl
    · simp only [hij, if_false]
      rfl

/-- **Each worker publishes** what it would publish by itself. -/
theorem own_notices {w : Worker} (h : ws[i]? = some w) (xs : List (Nat × Worker.Step)) :
    own i (notices ws xs) = w.reports (own i xs) := by
  induction xs generalizing ws w with
  | nil => rfl
  | cons x xs ih =>
    obtain ⟨j, st⟩ := x
    have hnext := getElem?_advance ws j st i
    rw [h, Option.map_some] at hnext
    rw [notices, own_append, ih hnext, own_cons, own_notice, h, Option.bind_some]
    by_cases hij : j = i
    · simp only [hij, if_true]
      rfl
    · simp only [hij, if_false]
      rfl

theorem advanceAll_append (ws : List Worker) (xs ys : List (Nat × Worker.Step)) :
    advanceAll ws (xs ++ ys) = advanceAll (advanceAll ws xs) ys := List.foldl_append

theorem notices_append (ws : List Worker) (xs ys : List (Nat × Worker.Step)) :
    notices ws (xs ++ ys) = notices ws xs ++ notices (advanceAll ws xs) ys := by
  induction xs generalizing ws with
  | nil => rfl
  | cons x xs ih =>
    rw [List.cons_append, notices, notices, ih, List.append_assoc]
    rfl

theorem length_advanceAll (ws : List Worker) (xs : List (Nat × Worker.Step)) :
    (advanceAll ws xs).length = ws.length := by
  induction xs generalizing ws with
  | nil => rfl
  | cons x xs ih =>
    show (advanceAll (advance ws x) xs).length = _
    rw [ih, advance, List.length_modify]

/-! ## What is done with a set -/

/-- What is done with a set. An event is handed to all workers, one after the other; where several
emissions overlap, and the workers go on meanwhile, it is offered to one worker at a time. -/
inductive Step where
  | emit (e : Event)
  | offer (e : Event) (i : Nat)
  | takeUp (i : Nat)
  | finish (i : Nat)

/-- The set after a step. -/
def Step.perform : Step → SubscriberSet → SubscriberSet
  | emit e, s => s.emit e
  | offer e i, s => s.emitTo e i
  | takeUp i, s => s.takeUp i
  | finish i, s => s.finish i

/-- The set after some steps. -/
def play (steps : List Step) (s : SubscriberSet) : SubscriberSet :=
  steps.foldl (fun s step => step.perform s) s

/-- What a step comes to at the workers of a set of some size. -/
def Step.parts (size : Nat) : Step → List (Nat × Worker.Step)
  | emit e => (List.range size).map fun i => (i, .offer e)
  | offer e i => [(i, .offer e)]
  | takeUp i => [(i, .takeUp)]
  | finish i => [(i, .finish)]

/-- What a step comes to at one worker. -/
def Step.at? (i : Nat) : Step → Option Worker.Step
  | emit e => some (.offer e)
  | offer e j => if j = i then some (.offer e) else none
  | takeUp j => if j = i then some .takeUp else none
  | finish j => if j = i then some .finish else none

theorem Step.perform_eq (step : Step) (s : SubscriberSet) :
    step.perform s = s.actAll (step.parts s.size) := by
  cases step with
  | emit e =>
    rw [perform, SubscriberSet.emit, parts, actAll, List.foldl_map]
    rfl
  | offer | takeUp | finish => rfl

theorem actAll_size (s : SubscriberSet) (xs : List (Nat × Worker.Step)) :
    (s.actAll xs).size = s.size := by
  rw [size, (actAll_eq s xs).1, length_advanceAll, size]

theorem play_eq (steps : List Step) (s : SubscriberSet) :
    play steps s = s.actAll (steps.flatMap (Step.parts s.size)) := by
  induction steps generalizing s with
  | nil => rfl
  | cons step steps ih =>
    show play steps (step.perform s) = _
    rw [ih, step.perform_eq, actAll_size, List.flatMap_cons, actAll, actAll, actAll,
      List.foldl_append]

theorem Step.own_parts (step : Step) {i size : Nat} (hi : i < size) :
    own i (step.parts size) = (step.at? i).toList := by
  cases step with
  | emit e => exact own_range size i (Worker.Step.offer e) hi
  | offer e j | takeUp j | finish j =>
    rw [parts, own_cons, at?]
    split <;> rfl

theorem own_flatMap_parts (steps : List Step) {i size : Nat} (hi : i < size) :
    own i (steps.flatMap (Step.parts size)) = steps.filterMap (Step.at? i) := by
  induction steps with
  | nil => rfl
  | cons step steps ih =>
    rw [List.flatMap_cons, own_append, ih, step.own_parts hi, List.filterMap_cons]
    cases step.at? i <;> rfl

end SubscriberSet

end Overseer
