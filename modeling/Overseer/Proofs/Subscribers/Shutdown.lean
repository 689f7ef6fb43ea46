import Mathlib.Algebra.GroupWithZero.Nat
import Overseer.Proofs.Subscribers.Interleaving
import Overseer.Subscribers.Schedule

/-!
# Ending a set of subscribers

A set is ended by letting its workers run until they have nothing left. Every worker that has
something to do stands in line for it (`Attended`), and each turn makes what is left to do smaller
(`turn_turned`), so after enough rounds nobody stands in line and the set has ended
(`shutdown_finishes`). It has not ended before every worker that is still there has handled all that
it has accepted (`shutdown_works`).
-/

namespace Overseer

/-- A worker has nothing left to do. -/
structure Worker.Rests (w : Worker) : Prop where
  current_eq : w.current = none
  queue_eq : w.queue = []

/-- The number of events that a worker has left to handle. -/
def Worker.load (w : Worker) : Nat :=
  if w.alive then w.current.toList.length + w.queue.length else 0

namespace Worker

variable {w : Worker}

theorem Rests.step (h : w.Rests) {st : Step} (hst : st.offered? = none) : w.step st = w := by
  cases st with
  | offer e => cases hst
  | takeUp => rw [Worker.step, takenUp, h.current_eq, h.queue_eq]
  | finish => exact finished_of_none h.current_eq

/-- A worker is done if it is gone or has nothing left to do. -/
theorem isDone_iff (w : Worker) : w.isDone = true ↔ (w.alive = true → w.Rests) := by
  rw [isDone, Bool.or_eq_true, Bool.not_eq_true', Bool.and_eq_true, Option.isNone_iff_eq_none,
    List.isEmpty_iff]
  cases w.alive with
  | false => exact iff_of_true (.inl rfl) nofun
  | true => exact ⟨fun h _ => (h.resolve_left nofun).elim .mk, fun h => .inr ⟨(h rfl).1, (h rfl).2⟩⟩

/-- A worker with nothing left accepts what it is offered. -/
theorem Rests.hasRoom (h : w.Rests) : w.hasRoom = true := by
  rw [Worker.hasRoom, h.queue_eq, decide_eq_true_eq]
  exact Nat.lt_of_lt_of_le Nat.zero_lt_one (Nat.le_max_left ..)

/-- No step brings a worker back. -/
theorem alive_of_step {st : Step} (h : (w.step st).alive = true) : w.alive = true := by
  cases st with
  | offer e =>
    by_cases hroom : (w.alive && w.hasRoom) = true
    · exact (Bool.and_eq_true_iff.1 hroom).1
    · rwa [step, offer_of_no_room (Bool.eq_false_iff.2 hroom)] at h
  | takeUp =>
    rw [step, takenUp] at h
    split at h <;> exact h
  | finish =>
    rw [step, finished] at h
    split at h
    · exact h
    · simp only at h
      split at h
      · exact h
      · exact h
      · cases h

theorem load_finish {e : Event} (h : w.current = some e) :
    (w.step .finish).load ≤ w.queue.length := by
  rw [step, finished, h, load]
  simp only
  cases w.subscriber.reaction w.handled e with
  | returns | panics =>
    show (if w.alive then 0 + w.queue.length else 0) ≤ _
    split <;> omega
  | takesDown => exact Nat.zero_le _

/-- A worker that works on has less left each time. -/
theorem load_work (halive : w.alive = true) (h : ¬ w.Rests) :
    ((w.step .takeUp).step .finish).load < w.load := by
  have hload : w.load = w.current.toList.length + w.queue.length := by rw [load, if_pos halive]
  cases hcurrent : w.current with
  | some e =>
    have hsame : w.step .takeUp = w := by rw [step, takenUp, hcurrent]
    rw [hsame, hload, hcurrent]
    have := load_finish hcurrent
    simp only [Option.toList_some, List.length_singleton]
    omega
  | none =>
    cases hqueue : w.queue with
    | nil => exact absurd ⟨hcurrent, hqueue⟩ h
    | cons e queue =>
      have htaken : w.step .takeUp = { w with current := some e, queue } := by
        rw [step, takenUp, hcurrent, hqueue]
      have := load_finish (w := w.step .takeUp) (e := e) (by rw [htaken])
      rw [htaken] at this ⊢
      rw [hload, hcurrent, hqueue]
      simp only [Option.toList_none, List.length_nil, List.length_cons] at this ⊢
      omega

end Worker

namespace SubscriberSet

variable {s s' : SubscriberSet} {i : Nat}

/-! ## Who stands in line -/

/-- Whoever stands in line goes on to do so, and whoever waits either goes on to wait or is lined
up. -/
structure Lines (s s' : SubscriberSet) : Prop where
  ready {t : Runnable} (h : t ∈ s.ready) : t ∈ s'.ready
  idle {t : Runnable} (h : t ∈ s.idle) : t ∈ s'.ready ∨ t ∈ s'.idle
  putOff_eq : s'.putOff = s.putOff
  count_eq : s'.ready.length + s'.idle.length = s.ready.length + s.idle.length

theorem Lines.of_same (hready : s'.ready = s.ready) (hputOff : s'.putOff = s.putOff)
    (hidle : s'.idle = s.idle) : Lines s s' where
  ready h := by rwa [hready]
  idle h := .inr (by rwa [hidle])
  putOff_eq := hputOff
  count_eq := by rw [hready, hidle]

theorem Lines.trans {s'' : SubscriberSet} (h : Lines s s') (h' : Lines s' s'') : Lines s s'' where
  ready ht := h'.ready (h.ready ht)
  idle ht := (h.idle ht).elim (fun ht => .inl (h'.ready ht)) h'.idle
  putOff_eq := h'.putOff_eq.trans h.putOff_eq
  count_eq := h'.count_eq.trans h.count_eq

theorem Lines.wake (h : Lines s s') (p : Runnable → Bool) : Lines s (s'.wake p) where
  ready ht := List.mem_append_left _ (h.ready ht)
  idle {t} ht := by
    rcases h.idle ht with ht | ht
    · exact .inl (List.mem_append_left _ ht)
    · by_cases hp : p t = true
      · exact .inl (List.mem_append_right _ (List.mem_filter.2 ⟨ht, hp⟩))
      · exact .inr (List.mem_filter.2 ⟨ht, by simp [hp]⟩)
  putOff_eq := h.putOff_eq
  count_eq := by
    have hcount := h.count_eq
    have hsplit := List.length_eq_length_filter_add (l := s'.idle) p
    simp only [SubscriberSet.wake, List.length_append]
    omega

theorem Lines.publish (h : Lines s s') (e : Event) : Lines s (s'.publish e) := by
  have hbus : Lines s { s' with bus := s'.bus.publish e } :=
    ⟨h.ready, h.idle, h.putOff_eq, h.count_eq⟩
  exact hbus.wake Runnable.listens

theorem act_lines (s : SubscriberSet) (x : Nat × Worker.Step) : Lines s (s.act x) := by
  have hsame : Lines s s := .of_same rfl rfl rfl
  obtain ⟨i, st⟩ := x
  cases st with
  | offer e =>
    show Lines s (s.emitTo e i)
    rw [emitTo]
    split
    · exact hsame
    · split
      · refine Lines.wake ?_ _
        exact .of_same rfl rfl rfl
      · split
        · exact hsame
        · exact hsame.publish _
  | takeUp =>
    show Lines s (s.takeUp i)
    rw [takeUp]
    split
    · exact hsame
    · split
      · exact .of_same rfl rfl rfl
      · exact hsame
  | finish =>
    show Lines s (s.finish i)
    unfold finish
    split
    · exact hsame
    · split
      · exact hsame
      · simp only
        split
        · exact .of_same rfl rfl rfl
        · refine Lines.publish ?_ _
          exact .of_same rfl rfl rfl
        · exact .of_same rfl rfl rfl

/-- A worker that waits is lined up when it accepts an event. -/
theorem emitTo_wakes {w : Worker} {e : Event} (hw : s.workers[i]? = some w)
    (halive : w.alive = true) (hroom : w.hasRoom = true) (hidle : .worker i ∈ s.idle) :
    .worker i ∈ (s.emitTo e i).ready := by
  rw [emitTo, hw]
  simp only [Worker.offer_of_room halive hroom]
  exact List.mem_append_right _ (List.mem_filter.2 ⟨hidle, by simp⟩)

/-- A worker that has something to do stands in line. It may have been put off. -/
def Attends (s : SubscriberSet) (i : Nat) : Prop :=
  ∀ w, s.workers[i]? = some w → w.alive = true →
    .worker i ∈ s.ready ∨ .worker i ∈ s.putOff ∨ (.worker i ∈ s.idle ∧ w.Rests)

/-- Every worker that has something to do stands in line. -/
def Attended (s : SubscriberSet) : Prop := ∀ i, s.Attends i

theorem ofSubscribers_attended (bus : Bus Event) (subscribers : List Subscriber) :
    (ofSubscribers bus subscribers).Attended := by
  intro i w hw _
  have hi : i < (subscribers.map fun subscriber => ({ subscriber } : Worker)).length :=
    (List.getElem?_eq_some_iff.1 hw).1
  rw [List.length_map] at hi
  exact .inl (List.mem_map.2 ⟨i, List.mem_range.2 hi, rfl⟩)

theorem Attends.act {j : Nat} (hs : s.Attends j) (x : Nat × Worker.Step) : (s.act x).Attends j := by
  obtain ⟨i, st⟩ := x
  intro w' hw' halive'
  have hlines := act_lines s (i, st)
  rw [(act_acts s (i, st)).workers_eq, getElem?_advance, Option.map_eq_some_iff] at hw'
  obtain ⟨w, hw, rfl⟩ := hw'
  have halive : w.alive = true := by
    split at halive'
    · exact Worker.alive_of_step halive'
    · exact halive'
  rcases hs w hw halive with hready | hoff | ⟨hidle, hrests⟩
  · exact .inl (hlines.ready hready)
  · exact .inr (.inl (by rwa [hlines.putOff_eq]))
  · by_cases hoffered : i = j ∧ st.offered? ≠ none
    · -- it has nothing to do, so it accepts what it is offered
      obtain ⟨rfl, hst⟩ := hoffered
      cases st with
      | offer e => exact .inl (emitTo_wakes hw halive hrests.hasRoom hidle)
      | takeUp | finish => exact absurd rfl hst
    · have hsame : (if i = j then w.step st else w) = w := by
        split
        · next hij => exact hrests.step (not_not.1 fun hst => hoffered ⟨hij, hst⟩)
        · rfl
      rw [hsame]
      exact (hlines.idle hidle).imp id fun h => .inr ⟨h, hrests⟩

theorem Attends.actAll {j : Nat} (hs : s.Attends j) (xs : List (Nat × Worker.Step)) :
    (s.actAll xs).Attends j := by
  induction xs generalizing s with
  | nil => exact hs
  | cons x xs ih => exact ih (hs.act x)

theorem actAll_lines (s : SubscriberSet) (xs : List (Nat × Worker.Step)) :
    Lines s (s.actAll xs) := by
  induction xs generalizing s with
  | nil => exact .of_same rfl rfl rfl
  | cons x xs ih => exact (act_lines s x).trans (ih (s.act x))

/-- The number of tasks that stand in line or wait. -/
def count (s : SubscriberSet) : Nat := s.ready.length + s.putOff.length + s.idle.length

theorem Lines.tasks_eq (h : Lines s s') : s'.count = s.count := by
  have hcount := h.count_eq
  rw [count, h.putOff_eq, count]
  omega

/-! ## What is left to do -/

/-- The number of events that are left to handle. -/
def load (s : SubscriberSet) : Nat := (s.workers.map Worker.load).sum

/-- A measure of what is left to do, for a set of at most so many tasks. Each event that is handled
may line up all of them. -/
def remaining (size : Nat) (s : SubscriberSet) : Nat :=
  s.load * (size + 1) + (s.ready.length + s.putOff.length)

theorem sum_modify_lt {ws : List Worker} {w : Worker} {f : Worker → Worker} (hw : ws[i]? = some w)
    (hlt : (f w).load < w.load) :
    ((ws.modify i f).map Worker.load).sum < (ws.map Worker.load).sum := by
  induction ws generalizing i with
  | nil => cases hw
  | cons w' ws ih =>
    cases i with
    | zero =>
      cases hw
      simp only [List.modify_zero_cons, List.map_cons, List.sum_cons]
      omega
    | succ i =>
      have := ih (i := i) hw
      simp only [List.modify_succ_cons, List.map_cons, List.sum_cons]
      omega

theorem work_eq (s : SubscriberSet) (i : Nat) :
    s.work i = s.actAll [(i, .takeUp), (i, .finish)] := rfl

theorem work_load {w : Worker} (hw : s.workers[i]? = some w) (halive : w.alive = true)
    (hbusy : ¬ w.Rests) : (s.work i).load < s.load := by
  rw [load, work_eq, (actAll_eq s _).1]
  show (((s.workers.modify i _).modify i _).map Worker.load).sum < _
  rw [List.modify_modify_eq]
  exact sum_modify_lt hw (Worker.load_work halive hbusy)

/-! ## Turns -/

/-- What the workers of a set do on their own: each goes on in some steps, without being offered
anything, and what that says is published. -/
def Works (s s' : SubscriberSet) : Prop :=
  ∃ xs : List (Nat × Worker.Step), (∀ x ∈ xs, x.2.offered? = none) ∧
    s'.workers = advanceAll s.workers xs ∧
    s'.bus = s.bus.publishAll ((notices s.workers xs).map Prod.snd) ∧ s'.listeners = s.listeners

theorem Works.of_eq (hworkers : s'.workers = s.workers) (hbus : s'.bus = s.bus)
    (hlisteners : s'.listeners = s.listeners) : Works s s' :=
  ⟨[], fun _ h => absurd h List.not_mem_nil, hworkers, hbus, hlisteners⟩

theorem Works.trans {s'' : SubscriberSet} (h : Works s s') (h' : Works s' s'') : Works s s'' := by
  obtain ⟨xs, hxs, hworkers, hbus, hlisteners⟩ := h
  obtain ⟨ys, hys, hworkers', hbus', hlisteners'⟩ := h'
  rw [hworkers] at hworkers' hbus'
  rw [hbus] at hbus'
  refine ⟨xs ++ ys, fun x hx => ?_, ?_, ?_, hlisteners'.trans hlisteners⟩
  · exact (List.mem_append.1 hx).elim (hxs x) (hys x)
  · rw [advanceAll_append, hworkers']
  · rw [notices_append, List.map_append, hbus', Bus.publishAll, Bus.publishAll, Bus.publishAll,
      List.foldl_append]

theorem work_works (s : SubscriberSet) (i : Nat) : Works s (s.work i) := by
  obtain ⟨hworkers, hbus, hlisteners⟩ := actAll_eq s [(i, .takeUp), (i, .finish)]
  refine ⟨_, fun x hx => ?_, hworkers, hbus, hlisteners⟩
  simp only [List.mem_cons, List.not_mem_nil, or_false] at hx
  rcases hx with rfl | rfl <;> rfl

/-- A worker's turn ends because there is nothing left to do in it. -/
inductive Halts (i : Nat) (s : SubscriberSet) : SubscriberSet → Prop
  /-- The worker is gone, if there ever was one. -/
  | gone (h : ∀ w, s.workers[i]? = some w → w.alive = false) : Halts i s s
  /-- It has nothing left, and waits. -/
  | rests {w : Worker} (hw : s.workers[i]? = some w) (h : w.Rests) :
      Halts i s { s with idle := s.idle ++ [.worker i] }

/-- A worker that has done a great deal is put off. -/
def putOffLast (s : SubscriberSet) (i : Nat) : SubscriberSet :=
  { s with putOff := .worker i :: s.putOff }

/-- A worker's turn ends, or it handles the next event. -/
theorem workerTurn_succ (budget : Nat) (s : SubscriberSet) (i : Nat) :
    Halts i s (workerTurn (budget + 1) s i) ∨
      ∃ w, s.workers[i]? = some w ∧ w.alive = true ∧ ¬ w.Rests ∧
        workerTurn (budget + 1) s i = workerTurn budget (s.work i) i := by
  rw [workerTurn]
  cases hw : s.workers[i]? with
  | none => exact .inl (.gone fun w h => by cases hw.symm.trans h)
  | some w =>
    simp only
    split
    · next hgone =>
      refine .inl (.gone fun w' hw' => ?_)
      cases hw.symm.trans hw'
      simpa using hgone
    · next halive =>
      split
      · next hrests =>
        rw [Bool.and_eq_true, Option.isNone_iff_eq_none, List.isEmpty_iff] at hrests
        exact .inl (.rests hw ⟨hrests.1, hrests.2⟩)
      · next hbusy =>
        refine .inr ⟨w, rfl, by simpa using halive, fun hrests => hbusy ?_, rfl⟩
        rw [hrests.current_eq, hrests.queue_eq]
        rfl

/-- What a worker has brought about so far in its turn. -/
structure Went (s s' : SubscriberSet) : Prop where
  works : Works s s'
  attends {j : Nat} (h : s.Attends j) : s'.Attends j
  count_eq : s'.count = s.count
  load_le : s'.load ≤ s.load

theorem Went.refl (s : SubscriberSet) : Went s s := ⟨.of_eq rfl rfl rfl, id, rfl, Nat.le_refl _⟩

theorem Went.work {w : Worker} (h : Went s s') (hw : s'.workers[i]? = some w)
    (halive : w.alive = true) (hbusy : ¬ w.Rests) : Went s (s'.work i) where
  works := h.works.trans (work_works s' i)
  attends hj := by
    rw [work_eq]
    exact (h.attends hj).actAll _
  count_eq := by
    rw [work_eq]
    exact (actAll_lines s' _).tasks_eq.trans h.count_eq
  load_le := Nat.le_trans (Nat.le_of_lt (work_load hw halive hbusy)) h.load_le

/-- However long a worker's turn goes on, it ends in one of three ways. -/
theorem workerTurn_went {t : SubscriberSet} (h : Went s t) (budget : Nat) :
    ∃ s', Went s s' ∧ s'.load ≤ t.load ∧
      (Halts i s' (workerTurn budget t i) ∨ workerTurn budget t i = s'.putOffLast i) := by
  induction budget generalizing t with
  | zero => exact ⟨t, h, Nat.le_refl _, .inr rfl⟩
  | succ budget ih =>
    rcases workerTurn_succ budget t i with hhalts | ⟨w, hw, halive, hbusy, heq⟩
    · exact ⟨t, h, Nat.le_refl _, .inl hhalts⟩
    · obtain ⟨s', hs', hle, hends⟩ := ih (h.work hw halive hbusy)
      rw [heq]
      exact ⟨s', hs', Nat.le_trans hle (Nat.le_of_lt (work_load hw halive hbusy)), hends⟩

/-- What a turn comes to. Something is left to do only if there was more before. -/
structure Turned (size : Nat) (s s' : SubscriberSet) : Prop where
  works : Works s s'
  attended : s.Attended → s'.Attended
  count_le : s'.count ≤ s.count
  remaining_lt : s.count ≤ size → s'.remaining size < s.remaining size

/-- A set without its first task in line, for the others. -/
theorem Attends.of_cons {t : Runnable} {ready : List Runnable} {j : Nat} (hs : s.Attends j)
    (hready : s.ready = t :: ready) (hne : t ≠ .worker j) :
    ({ s with ready } : SubscriberSet).Attends j := by
  intro w hw halive
  refine (hs w hw halive).imp_left fun h => ?_
  rw [hready] at h
  exact (List.mem_cons.1 h).resolve_left fun heq => hne heq.symm

theorem Halts.attends (h : Halts i s s') {j : Nat} (hs : j ≠ i → s.Attends j) : s'.Attends j := by
  cases h with
  | gone hgone =>
    by_cases hj : j = i
    · subst hj
      intro w hw halive
      rw [hgone w hw] at halive
      cases halive
    · exact hs hj
  | @rests w hw hrests =>
    intro w' hw' halive
    by_cases hj : j = i
    · subst hj
      cases hw.symm.trans hw'
      exact .inr (.inr ⟨by simp, hrests⟩)
    · rcases hs hj w' hw' halive with h | h | ⟨h, hrests'⟩
      · exact .inl h
      · exact .inr (.inl h)
      · exact .inr (.inr ⟨List.mem_append_left _ h, hrests'⟩)

theorem putOffLast_attends {j : Nat} (hs : j ≠ i → s.Attends j) : (s.putOffLast i).Attends j := by
  intro w hw halive
  by_cases hj : j = i
  · subst hj
    exact .inr (.inl List.mem_cons_self)
  · rcases hs hj w hw halive with h | h | h
    · exact .inl h
    · exact .inr (.inl (List.mem_cons_of_mem _ h))
    · exact .inr (.inr h)

/-- Halting changes at most who waits. -/
theorem Halts.keeps (h : Halts i s s') :
    s'.workers = s.workers ∧ s'.bus = s.bus ∧ s'.listeners = s.listeners ∧
      s'.ready = s.ready ∧ s'.putOff = s.putOff ∧ s'.count ≤ s.count + 1 := by
  cases h with
  | gone => exact ⟨rfl, rfl, rfl, rfl, rfl, Nat.le_succ _⟩
  | rests =>
    refine ⟨rfl, rfl, rfl, rfl, rfl, ?_⟩
    rw [count, count]
    simp only [List.length_append, List.length_singleton]
    omega

/-- What is left to do is less when an event was handled, whoever is lined up over that. -/
theorem remaining_lt_of_load {size : Nat} (hload : s'.load < s.load) (hcount : s'.count ≤ size) :
    s'.remaining size < s.remaining size := by
  have hmul := Nat.mul_le_mul_right (size + 1) hload
  rw [Nat.succ_mul] at hmul
  rw [count] at hcount
  rw [remaining, remaining]
  omega

/-- **A worker's turn** leaves less to do. -/
theorem workerTurn_turned (budget : Nat) {ready : List Runnable}
    (hready : s.ready = .worker i :: ready) (size : Nat) :
    Turned size s (workerTurn (budget + 1) { s with ready } i) := by
  have hothers {j : Nat} (hs : s.Attends j) (hj : j ≠ i) :
      ({ s with ready } : SubscriberSet).Attends j :=
    hs.of_cons hready fun heq => hj (Runnable.worker.inj heq).symm
  have hfirst : Works s { s with ready } := .of_eq rfl rfl rfl
  have hcount : ({ s with ready } : SubscriberSet).count + 1 = s.count := by
    rw [count, count, hready]
    simp only [List.length_cons]
    omega
  rcases workerTurn_succ budget { s with ready } i with hhalts | ⟨w, hw, halive, hbusy, heq⟩
  · obtain ⟨hworkers, hbus, hlisteners, hready', hputOff, hcount'⟩ := hhalts.keeps
    refine ⟨hfirst.trans (.of_eq hworkers hbus hlisteners), fun hs j =>
      hhalts.attends fun hj => hothers (hs j) hj, by omega, fun _ => ?_⟩
    rw [remaining, remaining, load, hworkers, hready', hputOff, hready]
    show s.load * _ + _ < _
    simp only [List.length_cons]
    omega
  · rw [heq]
    obtain ⟨t, ht, hle, hends⟩ :=
      workerTurn_went ((Went.refl _).work hw halive hbusy) budget
    have hless : t.load < s.load := Nat.lt_of_le_of_lt hle (work_load hw halive hbusy)
    have hcount' := ht.count_eq
    rcases hends with hhalts | hput
    · obtain ⟨hworkers, hbus, hlisteners, hready', hputOff, hcount''⟩ := hhalts.keeps
      refine ⟨(hfirst.trans ht.works).trans (.of_eq hworkers hbus hlisteners), fun hs j =>
        hhalts.attends fun hj => ht.attends (hothers (hs j) hj), by omega, fun hsize => ?_⟩
      refine remaining_lt_of_load ?_ (by omega)
      rw [load, hworkers]
      exact hless
    · rw [hput]
      have hput' : (t.putOffLast i).count = t.count + 1 := by
        rw [count, count, putOffLast]
        simp only [List.length_cons]
        omega
      refine ⟨(hfirst.trans ht.works).trans (.of_eq rfl rfl rfl), fun hs j =>
        putOffLast_attends fun hj => ht.attends (hothers (hs j) hj), by omega, fun hsize => ?_⟩
      exact remaining_lt_of_load hless (by omega)

/-- A set of which no listener is left does not listen. -/
theorem receiver?_of_listening (h : s.listening = false) (i : Nat) : s.receiver? i = none := by
  rw [receiver?]
  cases hl : s.listeners[i]? with
  | none => rfl
  | some l =>
    have hnot := List.any_eq_false.1 h l (List.mem_of_getElem? hl)
    simpa using hnot

/-- **A turn leaves less to do**, once no listener is left. -/
theorem turn_turned (hlisten : s.listening = false) (h : s.turn = some s') (size : Nat) :
    Turned size s s' := by
  rw [turn] at h
  split at h
  · cases h
  · next i ready hready =>
    cases h
    exact workerTurn_turned _ hready size
  · next i ready hready =>
    have hattended (hs : s.Attended) : ({ s with ready } : SubscriberSet).Attended :=
      fun j => (hs j).of_cons hready nofun
    have hreceiver : ({ s with ready } : SubscriberSet).receiver? i = none :=
      receiver?_of_listening hlisten i
    split at h
    · cases h
      rw [dismiss, hreceiver]
      refine ⟨.of_eq rfl rfl rfl, hattended, ?_, fun _ => ?_⟩
      · rw [count, count, hready]
        simp only [List.length_cons]
        omega
      · rw [remaining, remaining, hready, load, load]
        simp only [List.length_cons]
        omega
    · cases h
      have hforward : ({ s with ready } : SubscriberSet).forward i = none := by
        rw [forward, hreceiver]
      rw [budget, listenerTurn, hforward]
      refine ⟨.of_eq rfl rfl rfl, fun hs j w hw halive => ?_, ?_, fun _ => ?_⟩
      · rcases hattended hs j w hw halive with h | h | ⟨h, hrests⟩
        · exact .inl h
        · exact .inr (.inl h)
        · exact .inr (.inr ⟨List.mem_append_left _ h, hrests⟩)
      · rw [count, count, hready]
        simp only [List.length_cons, List.length_append, List.length_nil]
        omega
      · rw [remaining, remaining, hready, load, load]
        simp only [List.length_cons]
        omega

/-! ## Rounds -/

theorem Works.listening_eq (h : Works s s') : s'.listening = s.listening := by
  obtain ⟨_, _, _, _, hlisteners⟩ := h
  rw [listening, hlisteners, listening]

/-- What some turns come to. -/
structure Settles (size : Nat) (s s' : SubscriberSet) : Prop where
  works : Works s s'
  attended : s.Attended → s'.Attended
  count_le : s'.count ≤ s.count
  remaining_le : s.count ≤ size → s'.remaining size ≤ s.remaining size

theorem turns_settles (hlisten : s.listening = false) (n size : Nat) :
    Settles size s (turns n s) := by
  induction n generalizing s with
  | zero => exact ⟨.of_eq rfl rfl rfl, id, Nat.le_refl _, fun _ => Nat.le_refl _⟩
  | succ n ih =>
    rw [turns]
    split
    · exact ⟨.of_eq rfl rfl rfl, id, Nat.le_refl _, fun _ => Nat.le_refl _⟩
    · next s' hturn =>
      have hfirst := turn_turned hlisten hturn size
      have hrest := ih (hfirst.works.listening_eq.trans hlisten)
      refine ⟨hfirst.works.trans hrest.works, fun hs => hrest.attended (hfirst.attended hs),
        Nat.le_trans hrest.count_le hfirst.count_le, fun hsize => ?_⟩
      exact Nat.le_trans (hrest.remaining_le (Nat.le_trans hfirst.count_le hsize))
        (Nat.le_of_lt (hfirst.remaining_lt hsize))

/-- Lining up those who were put off leaves as much to do. -/
theorem lineUp_settles (s : SubscriberSet) (size : Nat) : Settles size s s.lineUp where
  works := .of_eq rfl rfl rfl
  attended hs j w hw halive := by
    rcases hs j w hw halive with h | h | h
    · exact .inl (List.mem_append_left _ h)
    · exact .inl (List.mem_append_right _ h)
    · exact .inr (.inr h)
  count_le := by
    rw [count, count, lineUp]
    simp only [List.length_append, List.length_nil]
    omega
  remaining_le _ := by
    rw [remaining, remaining, lineUp, load, load]
    simp only [List.length_append, List.length_nil]
    omega

/-- **A round leaves less to do** if anybody stands in line. -/
theorem round_turned (hlisten : s.listening = false) (hready : s.ready ≠ []) (size : Nat) :
    Turned size s s.round := by
  obtain ⟨t, hturn⟩ : ∃ t, s.turn = some t := by
    rw [turn]
    split
    · next h => exact absurd h hready
    · exact ⟨_, rfl⟩
    · split <;> exact ⟨_, rfl⟩
  have hfirst := turn_turned hlisten hturn size
  have hturns : turns turnsPerRound s = turns 60 t := by
    rw [turnsPerRound, turns, hturn]
  have hrest : Settles size t (turns 60 t) :=
    turns_settles (hfirst.works.listening_eq.trans hlisten) 60 size
  have hlast := lineUp_settles (turns 60 t) size
  rw [round, hturns]
  refine ⟨(hfirst.works.trans hrest.works).trans hlast.works,
    fun hs => hlast.attended (hrest.attended (hfirst.attended hs)),
    Nat.le_trans hlast.count_le (Nat.le_trans hrest.count_le hfirst.count_le), fun hsize => ?_⟩
  have hsize' := Nat.le_trans hfirst.count_le hsize
  have hsize'' := Nat.le_trans hrest.count_le hsize'
  exact Nat.lt_of_le_of_lt (Nat.le_trans (hlast.remaining_le hsize'') (hrest.remaining_le hsize'))
    (hfirst.remaining_lt hsize)

/-- **Enough rounds leave nobody in line.** -/
theorem run_finishes {size rounds : Nat} (hlisten : s.listening = false) (hs : s.Attended)
    (hputOff : s.putOff = []) (hsize : s.count ≤ size) (henough : s.remaining size ≤ rounds) :
    Works s (run rounds s) ∧ (run rounds s).Attended ∧ (run rounds s).ready = [] ∧
      (run rounds s).putOff = [] := by
  induction rounds generalizing s with
  | zero =>
    have hnobody : s.ready = [] := by
      rw [remaining] at henough
      exact List.length_eq_zero_iff.1 (by omega)
    exact ⟨.of_eq rfl rfl rfl, hs, hnobody, hputOff⟩
  | succ rounds ih =>
    rw [run]
    split
    · next hempty => exact ⟨.of_eq rfl rfl rfl, hs, List.isEmpty_iff.1 hempty, hputOff⟩
    · next hready =>
      have hround := round_turned hlisten (fun h => hready (by rw [h]; rfl)) size
      obtain ⟨hworks, hrest⟩ := ih (hround.works.listening_eq.trans hlisten) (hround.attended hs)
        rfl (Nat.le_trans hround.count_le hsize) (by have := hround.remaining_lt hsize; omega)
      exact ⟨hround.works.trans hworks, hrest⟩

/-- However many rounds go by, nothing is done in them but what workers do on their own. -/
theorem run_works (hlisten : s.listening = false) (rounds : Nat) : Works s (run rounds s) := by
  induction rounds generalizing s with
  | zero => exact .of_eq rfl rfl rfl
  | succ rounds ih =>
    rw [run]
    split
    · exact .of_eq rfl rfl rfl
    · have hround : Works s s.round :=
        (turns_settles hlisten turnsPerRound s.count).works.trans (lineUp_settles _ s.count).works
      exact hround.trans (ih (hround.listening_eq.trans hlisten))

/-- A set has ended only when each of its workers is done. -/
theorem shutdown_eq_some {rounds : Nat} :
    s.shutdown rounds = some s' ↔ s.listening = false ∧ run rounds s = s' ∧
      ∀ w ∈ s'.workers, w.alive = true → w.Rests := by
  rw [shutdown]
  cases s.listening with
  | true => exact iff_of_false (by rw [if_pos rfl]; nofun) fun h => Bool.false_ne_true h.1.symm
  | false =>
    rw [if_neg Bool.false_ne_true, ite_eq_iff]
    simp only [List.all_eq_true, Worker.isDone_iff, Option.some.injEq, reduceCtorEq, and_false,
      or_false, true_and]
    constructor
    · rintro ⟨hdone, rfl⟩
      exact ⟨rfl, hdone⟩
    · rintro ⟨rfl, hdone⟩
      exact ⟨hdone, rfl⟩

/-- **A set that has ended** has gone through some work of its workers, after which each of them
that is still there has nothing left to do. -/
theorem shutdown_works {rounds : Nat} (h : s.shutdown rounds = some s') :
    Works s s' ∧ ∀ w ∈ s'.workers, w.alive = true → w.Rests := by
  obtain ⟨hlisten, rfl, hrest⟩ := shutdown_eq_some.1 h
  exact ⟨run_works hlisten rounds, hrest⟩

/-- **Ending a set** takes some rounds. -/
theorem shutdown_finishes (hlisten : s.listening = false) (hs : s.Attended)
    (hputOff : s.putOff = []) {rounds : Nat} (henough : s.remaining s.count ≤ rounds) :
    ∃ s', s.shutdown rounds = some s' := by
  obtain ⟨-, hattended, hready, hputOff'⟩ :=
    run_finishes hlisten hs hputOff (Nat.le_refl _) henough
  refine ⟨run rounds s, shutdown_eq_some.2 ⟨hlisten, rfl, fun w hw halive => ?_⟩⟩
  obtain ⟨i, hi⟩ := List.mem_iff_getElem?.1 hw
  rcases hattended i w hi halive with h | h | ⟨-, h⟩
  · rw [hready] at h
    cases h
  · rw [hputOff'] at h
    cases h
  · exact h

end SubscriberSet

end Overseer
