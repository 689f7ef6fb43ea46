import Mathlib.Data.List.Basic
import Overseer.Subscribers.Basic

/-!
# What one worker goes through

A worker is offered events, takes up one after the other and finishes it. That is all that can
happen to it (`Worker.Step`), and what is published on the way is a matter of that worker alone
(`Worker.report`). So what can be said of a worker is said here of any list of such steps, whatever
goes on around it:

* the events that it has handled, the one in hand and the ones in its queue are those that were
  accepted, in the order in which they were offered (`Worker.contents_play`);
* each event that it refused was reported once, unless it was such a report itself
  (`Worker.overflows_reports`);
* each panic over an event was reported once (`Worker.panics_reports`).

A worker is there until it handles an event that takes it down (`Worker.Sound.alive_iff`). What is
in its queue then is lost, and what it is offered later it refuses.

What a subscriber makes of an event may depend on the events before it. So it is asked of each event
that was handled together with those that were handled before (`Worker.panicReports`).
-/

namespace Overseer.Worker

/-- What can happen to a worker. -/
inductive Step where
  | offer (e : Event)
  | takeUp
  | finish
  deriving DecidableEq

/-- The event that a worker is offered in a step. -/
def Step.offered? : Step → Option Event
  | .offer e => some e
  | .takeUp | .finish => none

/-- The worker of a subscriber to whom nothing has happened. -/
def new (subscriber : Subscriber) : Worker := { subscriber }

/-- Whether there is room for one more event in the queue. -/
def hasRoom (w : Worker) : Bool := w.queue.length < max 1 w.subscriber.capacity

/-- The next event of the queue is taken up, unless there is one in hand. -/
def takenUp (w : Worker) : Worker :=
  match w.current, w.queue with
  | none, e :: queue => { w with current := some e, queue }
  | _, _ => w

/-- The event in hand is handled. -/
def finished (w : Worker) : Worker :=
  match w.current with
  | none => w
  | some e =>
    let after := { w with current := none, handled := w.handled ++ [e] }
    match w.subscriber.reaction w.handled e with
    | .returns | .panics _ => after
    | .takesDown => { after with queue := [], alive := false }

/-- The worker after a step. -/
def step (w : Worker) : Step → Worker
  | .offer e => (w.offer e).2
  | .takeUp => w.takenUp
  | .finish => w.finished

/-- The event that is handled in a step. -/
def done? (w : Worker) : Step → Option Event
  | .offer _ | .takeUp => none
  | .finish => w.current

/-- What is published over an event that is offered: that it was refused, unless it reports such a
thing itself. -/
def refusalReport (w : Worker) (e : Event) : Option Event :=
  if (w.alive && w.hasRoom) || e.isOverflow then none
  else some (.overflow w.subscriber.name (if w.alive then Refusal.full else Refusal.closed).reason)

/-- What is published over an event that a subscriber handles after some others: that it panicked.
-/
def panicReport (subscriber : Subscriber) (past : List Event) (e : Event) : Option Event :=
  match subscriber.reaction past e with
  | .panics panic => some (.panicked subscriber.name panic.message)
  | .returns | .takesDown => none

/-- What is published over events that a subscriber handles one after the other, after some
others. -/
def panicReports (subscriber : Subscriber) (past : List Event) : List Event → List Event
  | [] => []
  | e :: es =>
    (panicReport subscriber past e).toList ++ panicReports subscriber (past ++ [e]) es

/-- Whether an event that was handled took the worker down. -/
def TookDown (subscriber : Subscriber) (handled : List Event) : Prop :=
  ∃ past e, past ++ [e] <+: handled ∧ subscriber.reaction past e = .takesDown

/-- What is published in a step. -/
def report (w : Worker) : Step → Option Event
  | .offer e => w.refusalReport e
  | .takeUp => none
  | .finish => w.current.bind (panicReport w.subscriber w.handled)

/-- The worker after some steps. -/
def play (w : Worker) (steps : List Step) : Worker := steps.foldl step w

/-- What is published in some steps. -/
def reports (w : Worker) : List Step → List Event
  | [] => []
  | st :: steps => (w.report st).toList ++ (w.step st).reports steps

/-- The events that a worker is offered in some steps, each with the worker as it finds it. -/
def offers (w : Worker) : List Step → List (Event × Worker)
  | [] => []
  | st :: steps => (st.offered?.map fun e => (e, w)).toList ++ (w.step st).offers steps

/-- What a worker has handled, has in hand and has in its queue. -/
def contents (w : Worker) : List Event := w.handled ++ w.current.toList ++ w.queue

/-- The events among those offered that found room in the queue. -/
def roomy (offers : List (Event × Worker)) : List Event :=
  (offers.filter fun (_, w) => w.hasRoom).map Prod.fst

/-! ## Single steps -/

section
variable {w : Worker}

theorem offer_of_room {e : Event} (halive : w.alive = true) (hroom : w.hasRoom = true) :
    w.offer e = (none, { w with queue := w.queue ++ [e] }) := by
  rw [hasRoom, decide_eq_true_eq] at hroom
  simp [offer, halive, hroom]

theorem offer_of_no_room {e : Event} (h : (w.alive && w.hasRoom) = false) :
    w.offer e = (some (if w.alive then .full else .closed), w) := by
  cases halive : w.alive with
  | false => simp [offer, halive]
  | true =>
    rw [halive, Bool.true_and, hasRoom, decide_eq_false_iff_not] at h
    simp [offer, halive, h]

theorem finished_of_none (h : w.current = none) : w.finished = w := by
  rw [finished, h]

/-- Whatever happens, a worker stays that of its subscriber. -/
theorem step_subscriber (w : Worker) (st : Step) : (w.step st).subscriber = w.subscriber := by
  cases st with
  | offer e =>
    by_cases h : (w.alive && w.hasRoom) = true
    · rw [Bool.and_eq_true] at h
      rw [step, offer_of_room h.1 h.2]
    · rw [step, offer_of_no_room (Bool.eq_false_iff.2 h)]
  | takeUp =>
    rw [step, takenUp]
    split <;> rfl
  | finish =>
    rw [step, finished]
    split
    · rfl
    · simp only
      split <;> rfl

/-- An event that is finished was handled. -/
theorem step_handled (w : Worker) (st : Step) :
    (w.step st).handled = w.handled ++ (w.done? st).toList := by
  cases st with
  | offer e =>
    by_cases h : (w.alive && w.hasRoom) = true
    · rw [Bool.and_eq_true] at h
      rw [step, offer_of_room h.1 h.2]
      exact (List.append_nil _).symm
    · rw [step, offer_of_no_room (Bool.eq_false_iff.2 h)]
      exact (List.append_nil _).symm
  | takeUp =>
    rw [step, takenUp]
    split <;> exact (List.append_nil _).symm
  | finish =>
    rw [step, finished, done?]
    cases w.current with
    | none => exact (List.append_nil _).symm
    | some e =>
      simp only
      cases w.subscriber.reaction w.handled e <;> rfl

/-- One more event that was handled took the worker down, or one of those before it. -/
theorem tookDown_concat {subscriber : Subscriber} {handled : List Event} {e : Event} :
    TookDown subscriber (handled ++ [e]) ↔
      TookDown subscriber handled ∨ subscriber.reaction handled e = .takesDown := by
  constructor
  · rintro ⟨past, e', hfront, htakes⟩
    obtain heq | hfront := List.prefix_concat_iff.1 hfront
    · obtain ⟨rfl, hlast⟩ := List.append_inj' heq rfl
      obtain rfl := List.singleton_inj.1 hlast
      exact .inr htakes
    · exact .inl ⟨past, e', hfront, htakes⟩
  · rintro (⟨past, e', hfront, htakes⟩ | htakes)
    · exact ⟨past, e', hfront.trans (List.prefix_append _ _), htakes⟩
    · exact ⟨handled, e, List.prefix_refl _, htakes⟩

theorem not_tookDown_nil (subscriber : Subscriber) : ¬ TookDown subscriber [] := by
  rintro ⟨past, e, hfront, -⟩
  exact List.append_ne_nil_of_right_ne_nil past (List.cons_ne_nil e [])
    (List.prefix_nil.1 hfront)

/-- A worker is either there, or it has nothing left and has handled an event that took it down. -/
inductive Sound (w : Worker) : Prop
  | alive (halive : w.alive = true) (hhandled : ¬ TookDown w.subscriber w.handled)
  | gone (halive : w.alive = false) (hcurrent : w.current = none) (hqueue : w.queue = [])
      (hhandled : TookDown w.subscriber w.handled)

theorem new_sound (subscriber : Subscriber) : (new subscriber).Sound :=
  .alive rfl (not_tookDown_nil subscriber)

/-- A worker is there as long as it has handled no event that takes it down. -/
theorem Sound.alive_iff (h : w.Sound) :
    w.alive = true ↔ ¬ TookDown w.subscriber w.handled := by
  cases h with
  | alive halive hhandled => exact iff_of_true halive hhandled
  | gone halive _ _ hhandled =>
    exact iff_of_false (by rw [halive]; exact Bool.false_ne_true) (not_not_intro hhandled)

/-- Nothing happens any more to a worker that is gone. -/
theorem Sound.step_of_gone (h : w.Sound) (hgone : w.alive = false) (st : Step) : w.step st = w := by
  cases h with
  | alive halive =>
    rw [halive] at hgone
    cases hgone
  | gone _ hcurrent hqueue =>
    cases st with
    | offer e => rw [step, offer_of_no_room (by rw [hgone]; rfl)]
    | takeUp => rw [step, takenUp, hcurrent, hqueue]
    | finish => rw [step, finished_of_none hcurrent]

/-- What a step does to a worker that is there. -/
inductive Effect (w : Worker) : Step → Worker → Prop
  /-- It accepts an event. -/
  | accepts {e : Event} (hroom : w.hasRoom = true) :
      Effect w (.offer e) { w with queue := w.queue ++ [e] }
  /-- It refuses an event. -/
  | refuses {e : Event} (hroom : w.hasRoom = false) : Effect w (.offer e) w
  /-- It has nothing to take up, or has something in hand already. -/
  | waits : Effect w .takeUp w
  | takesUp {e : Event} {queue : List Event} (hcurrent : w.current = none)
      (hqueue : w.queue = e :: queue) : Effect w .takeUp { w with current := some e, queue }
  /-- It has nothing in hand. -/
  | rests (hcurrent : w.current = none) : Effect w .finish w
  | handles {e : Event} (hcurrent : w.current = some e)
      (hreaction : w.subscriber.reaction w.handled e ≠ .takesDown) :
      Effect w .finish { w with current := none, handled := w.handled ++ [e] }
  /-- It goes down with an event, and what is in its queue is lost. -/
  | goesDown {e : Event} (hcurrent : w.current = some e)
      (hreaction : w.subscriber.reaction w.handled e = .takesDown) :
      Effect w .finish
        { w with current := none, handled := w.handled ++ [e], queue := [], alive := false }

theorem step_effect (halive : w.alive = true) (st : Step) : Effect w st (w.step st) := by
  cases st with
  | offer e =>
    by_cases hroom : w.hasRoom = true
    · rw [step, offer_of_room halive hroom]
      exact .accepts hroom
    · rw [step, offer_of_no_room (by rw [halive, Bool.true_and, Bool.eq_false_iff.2 hroom])]
      exact .refuses (Bool.eq_false_iff.2 hroom)
  | takeUp =>
    rw [step, takenUp]
    split
    · next e queue hcurrent hqueue => exact .takesUp hcurrent hqueue
    · exact .waits
  | finish =>
    rw [step, finished]
    split
    · next hcurrent => exact .rests hcurrent
    · next e hcurrent =>
      simp only
      split
      · next hreaction => exact .handles hcurrent (by rw [hreaction]; nofun)
      · next p hreaction => exact .handles hcurrent (by rw [hreaction]; nofun)
      · next hreaction => exact .goesDown hcurrent hreaction

theorem Sound.step (h : w.Sound) (st : Step) : (w.step st).Sound := by
  cases h with
  | gone halive hcurrent hqueue hhandled =>
    rw [Sound.step_of_gone (.gone halive hcurrent hqueue hhandled) halive]
    exact .gone halive hcurrent hqueue hhandled
  | alive halive hhandled =>
    have heffect := step_effect halive st
    generalize w.step st = w' at heffect ⊢
    cases heffect with
    | accepts | refuses | waits | takesUp | rests => exact .alive halive hhandled
    | handles _ hreaction =>
      exact .alive halive fun htook => (tookDown_concat.1 htook).elim hhandled hreaction
    | goesDown _ hreaction => exact .gone rfl rfl rfl (tookDown_concat.2 (.inr hreaction))

end

/-! ## Runs -/

section
variable {w : Worker}

theorem play_cons (w : Worker) (st : Step) (steps : List Step) :
    w.play (st :: steps) = (w.step st).play steps := rfl

theorem play_subscriber (w : Worker) (steps : List Step) :
    (w.play steps).subscriber = w.subscriber := by
  induction steps generalizing w with
  | nil => rfl
  | cons st steps ih => rw [play_cons, ih, step_subscriber]

theorem Sound.play (h : w.Sound) (steps : List Step) : (w.play steps).Sound := by
  induction steps generalizing w with
  | nil => exact h
  | cons st steps ih => exact ih (h.step st)

theorem Sound.play_of_gone (h : w.Sound) (hgone : w.alive = false) (steps : List Step) :
    w.play steps = w := by
  induction steps with
  | nil => rfl
  | cons st steps ih => rw [play_cons, h.step_of_gone hgone, ih]

theorem reports_cons (w : Worker) (st : Step) (steps : List Step) :
    w.reports (st :: steps) = (w.report st).toList ++ (w.step st).reports steps := rfl

theorem offers_cons (w : Worker) (st : Step) (steps : List Step) :
    w.offers (st :: steps) =
      (st.offered?.map fun e => (e, w)).toList ++ (w.step st).offers steps := rfl

/-- **What a worker has accepted** is what it has handled, has in hand and has in its queue, in the
order in which it was offered, as long as the worker is there. It is not any more if it was taken
down, and then the end of what it has accepted is lost. -/
theorem contents_play (h : w.Sound) (steps : List Step) :
    (w.play steps).contents <+: w.contents ++ roomy (w.offers steps) ∧
      ((w.play steps).alive = true →
        (w.play steps).contents = w.contents ++ roomy (w.offers steps)) := by
  induction steps generalizing w with
  | nil =>
    rw [show w.play [] = w from rfl, show roomy (w.offers []) = [] from rfl, List.append_nil]
    exact ⟨List.prefix_refl _, fun _ => rfl⟩
  | cons st steps ih =>
    cases halive : w.alive with
    | false =>
      rw [h.play_of_gone halive]
      refine ⟨List.prefix_append .., fun hw => ?_⟩
      rw [halive] at hw
      cases hw
    | true =>
      have heffect := step_effect halive st
      have hnext := h.step st
      have hrest := ih hnext
      rw [play_cons, offers_cons]
      generalize w.step st = w' at heffect hnext hrest ⊢
      cases heffect with
      | accepts hroom =>
        simpa [roomy, contents, Step.offered?, hroom] using hrest
      | refuses hroom => simpa [roomy, Step.offered?, hroom] using hrest
      | waits | rests => exact hrest
      | takesUp hcurrent hqueue =>
        simpa [contents, Step.offered?, hcurrent, hqueue] using hrest
      | handles hcurrent _ => simpa [contents, Step.offered?, hcurrent] using hrest
      | goesDown hcurrent _ =>
        have hgone := hnext.play_of_gone rfl steps
        rw [hgone]
        refine ⟨?_, fun hw => nomatch hw⟩
        simp [contents, hcurrent, List.append_assoc]

/-- **Each refused event is reported once**, unless it is such a report itself. -/
theorem overflows_reports (w : Worker) (steps : List Step) :
    (w.reports steps).filter Event.isOverflow =
      (w.offers steps).filterMap fun (e, w) => w.refusalReport e := by
  induction steps generalizing w with
  | nil => rfl
  | cons st steps ih =>
    rw [reports_cons, offers_cons, List.filter_append, List.filterMap_append, ih]
    congr 1
    cases st with
    | offer e =>
      have hkept : ((w.refusalReport e).toList).filter Event.isOverflow =
          (w.refusalReport e).toList := by
        rw [refusalReport]
        split <;> rfl
      show List.filter _ (w.refusalReport e).toList =
        List.filterMap (fun (e, w) => refusalReport w e) [(e, w)]
      simp only [hkept, List.filterMap_cons, List.filterMap_nil]
      cases w.refusalReport e <;> rfl
    | takeUp => rfl
    | finish =>
      rw [report]
      cases w.current with
      | none => rfl
      | some e =>
        rw [Option.bind_some, panicReport]
        cases w.subscriber.reaction w.handled e <;> rfl

theorem panicReports_append (subscriber : Subscriber) (past es es' : List Event) :
    panicReports subscriber past (es ++ es') =
      panicReports subscriber past es ++ panicReports subscriber (past ++ es) es' := by
  induction es generalizing past with
  | nil => rw [List.append_nil]; rfl
  | cons e es ih =>
    rw [List.cons_append, panicReports, ih, panicReports, List.append_assoc, List.append_assoc]
    rfl

/-- **Each panic is reported once.** -/
theorem panics_reports (w : Worker) (steps : List Step) :
    panicReports w.subscriber [] (w.play steps).handled =
      panicReports w.subscriber [] w.handled ++ (w.reports steps).filter Event.isPanic := by
  induction steps generalizing w with
  | nil => rw [reports, List.filter_nil, List.append_nil, play, List.foldl_nil]
  | cons st steps ih =>
    have hrest := ih (w.step st)
    rw [step_subscriber] at hrest
    rw [play_cons, hrest, step_handled, reports_cons, List.filter_append, panicReports_append,
      List.nil_append, List.append_assoc]
    congr 2
    cases st with
    | offer e =>
      rw [report, refusalReport]
      split <;> rfl
    | takeUp => rfl
    | finish =>
      rw [done?, report]
      cases w.current with
      | none => rfl
      | some e =>
        rw [Option.bind_some, Option.toList_some, panicReports, panicReports, List.append_nil,
          panicReport]
        cases w.subscriber.reaction w.handled e <;> rfl

/-- Nothing else is reported. -/
theorem reports_kinds (w : Worker) (steps : List Step) :
    ∀ e ∈ w.reports steps, e.isOverflow = true ∨ e.isPanic = true := by
  induction steps generalizing w with
  | nil => exact fun e he => absurd he List.not_mem_nil
  | cons st steps ih =>
    intro e he
    rw [reports_cons, List.mem_append, Option.mem_toList] at he
    refine he.elim (fun he => ?_) (ih (w.step st) e)
    cases st with
    | offer e' =>
      rw [report, refusalReport] at he
      split at he
      · cases he
      · cases he
        exact .inl rfl
    | takeUp => cases he
    | finish =>
      rw [report, Option.bind_eq_some_iff] at he
      obtain ⟨e', -, he'⟩ := he
      rw [panicReport] at he'
      split at he'
      · cases he'
        exact .inr rfl
      · cases he'
      · cases he'

/-- Every offer is made to the worker of the same subscriber. -/
theorem offers_subscriber (w : Worker) (steps : List Step) :
    ∀ x ∈ w.offers steps, x.2.subscriber = w.subscriber := by
  induction steps generalizing w with
  | nil => exact fun x hx => absurd hx List.not_mem_nil
  | cons st steps ih =>
    intro x hx
    rw [offers_cons, List.mem_append] at hx
    rcases hx with hx | hx
    · cases hoffered : st.offered? with
      | none =>
        rw [hoffered] at hx
        cases hx
      | some e =>
        rw [hoffered] at hx
        rw [List.mem_singleton.1 hx]
    · rw [ih _ x hx, step_subscriber]

theorem offers_append (w : Worker) (steps more : List Step) :
    w.offers (steps ++ more) = w.offers steps ++ (w.play steps).offers more := by
  induction steps generalizing w with
  | nil => rfl
  | cons st steps ih =>
    rw [List.cons_append, offers_cons, offers_cons, ih, List.append_assoc, play_cons]

/-- A worker that works on is offered nothing. -/
theorem offers_eq_nil (w : Worker) {steps : List Step} (h : ∀ st ∈ steps, st.offered? = none) :
    w.offers steps = [] := by
  induction steps generalizing w with
  | nil => rfl
  | cons st steps ih =>
    rw [List.forall_mem_cons] at h
    rw [offers_cons, h.1, ih _ h.2]
    rfl

end

/-! ## The account of a worker -/

/-- The events that a subscriber's worker accepts in some steps: those offered that find the queue
shorter than the subscriber wants it at most. -/
def accepted (subscriber : Subscriber) (steps : List Step) : List Event :=
  (((new subscriber).offers steps).filter fun (_, w) =>
    w.queue.length < max 1 subscriber.capacity).map Prod.fst

/-- What can be said of a subscriber's worker after some steps. -/
structure Account (subscriber : Subscriber) (steps : List Step) : Prop where
  /-- The worker is there until it handles an event that takes it down. -/
  alive_iff : ((new subscriber).play steps).alive = true ↔
    ¬ TookDown subscriber ((new subscriber).play steps).handled
  /-- What it has handled, has in hand and has in its queue is what it has accepted, in order. -/
  contents_eq : ((new subscriber).play steps).alive = true →
    ((new subscriber).play steps).contents = accepted subscriber steps
  /-- A worker that was taken down has lost the end of that. -/
  contents_prefix : ((new subscriber).play steps).contents <+: accepted subscriber steps
  /-- Each event that it refused, and that was no report of such a thing, is reported once. -/
  overflows_eq : ((new subscriber).reports steps).filter Event.isOverflow =
    ((new subscriber).offers steps).filterMap fun (e, w) =>
      if (w.alive && w.queue.length < max 1 subscriber.capacity) || e.isOverflow then none
      else some (.overflow subscriber.name (if w.alive then "full" else "closed"))
  /-- Each panic over an event is reported once, with its text. -/
  panics_eq : ((new subscriber).reports steps).filter Event.isPanic =
    panicReports subscriber [] ((new subscriber).play steps).handled
  /-- Nothing else is reported. -/
  kinds : ∀ e ∈ (new subscriber).reports steps, e.isOverflow = true ∨ e.isPanic = true

theorem roomy_offers (subscriber : Subscriber) (steps : List Step) :
    roomy ((new subscriber).offers steps) = accepted subscriber steps := by
  refine congrArg (List.map Prod.fst) (List.filter_congr fun x hx => ?_)
  show (x.2.queue.length < max 1 x.2.subscriber.capacity : Bool) = _
  rw [offers_subscriber _ _ x hx]
  rfl

/-- **Every worker keeps its account.** -/
theorem account (subscriber : Subscriber) (steps : List Step) : Account subscriber steps := by
  have hsound := new_sound subscriber
  obtain ⟨hfront, heq⟩ := contents_play hsound steps
  rw [roomy_offers] at hfront heq
  have halive := (hsound.play steps).alive_iff
  rw [play_subscriber] at halive
  refine ⟨halive, heq, hfront, ?_, (panics_reports (new subscriber) steps).symm,
    reports_kinds (new subscriber) steps⟩
  rw [overflows_reports]
  refine List.filterMap_congr fun x hx => ?_
  obtain ⟨e, w⟩ := x
  have hsubscriber : w.subscriber = subscriber := offers_subscriber _ _ (e, w) hx
  simp only [refusalReport, hasRoom, hsubscriber]
  cases w.alive <;> rfl

end Overseer.Worker
