import Overseer.Proofs.Subscribers.Shutdown

/-!
# What becomes of an event that is handed to subscribers

Whatever is emitted, and however the emissions and the work of the workers come one after the other,
each subscriber's account is a matter of what happens at its own worker, and the bus is told exactly
what the accounts say (`fan_out`). In the end every worker that is still there has handled all that
it has accepted.

A worker is not always there to the end. A subscriber that panics before it starts to handle an
event takes its worker down: nobody is told of the panic, what is in the queue is lost
(`lost_with_the_worker`), and what comes later is refused.
-/

namespace Overseer.SubscriberSet

/-- What is published in some steps of a new set, each with the number of the worker. -/
def said (subscribers : List Subscriber) (steps : List Step) : List (Nat × Event) :=
  notices (subscribers.map Worker.new) (steps.flatMap (Step.parts subscribers.length))

/-- Whether something is done by a worker. -/
def Step.isWork : Step → Bool
  | emit _ | offer _ _ => false
  | takeUp _ | finish _ => true

/-- A set that can be ended: no listener is left that could hand it an event, and the workers that
have something to do stand in line, none of them put off. -/
structure Endable (s : SubscriberSet) : Prop where
  attended : s.Attended
  putOff_eq : s.putOff = []
  listening_eq : s.listening = false

section
variable (bus : Bus Event) (subscribers : List Subscriber) (steps : List Step)

theorem play_ofSubscribers :
    play steps (ofSubscribers bus subscribers) =
      (ofSubscribers bus subscribers).actAll
        (steps.flatMap (Step.parts subscribers.length)) := by
  rw [play_eq]
  congr 2
  rw [size, ofSubscribers, List.length_map]

theorem play_bus :
    (play steps (ofSubscribers bus subscribers)).bus =
      bus.publishAll ((said subscribers steps).map Prod.snd) := by
  rw [play_ofSubscribers]
  exact (actAll_eq _ _).2.1

variable {subscribers} {i : Nat} {subscriber : Subscriber}

theorem getElem?_new (h : subscribers[i]? = some subscriber) :
    (subscribers.map Worker.new)[i]? = some (Worker.new subscriber) := by
  rw [List.getElem?_map, h]
  rfl

theorem play_worker (h : subscribers[i]? = some subscriber) :
    (play steps (ofSubscribers bus subscribers)).workers[i]? =
      some ((Worker.new subscriber).play (steps.filterMap (Step.at? i))) := by
  have hi : i < subscribers.length := (List.getElem?_eq_some_iff.1 h).1
  have hworkers := getElem?_advanceAll (subscribers.map Worker.new)
    (steps.flatMap (Step.parts subscribers.length)) i
  rw [getElem?_new h, own_flatMap_parts steps hi] at hworkers
  rw [play_ofSubscribers, (actAll_eq _ _).1]
  exact hworkers

theorem own_said (h : subscribers[i]? = some subscriber) :
    own i (said subscribers steps) =
      (Worker.new subscriber).reports (steps.filterMap (Step.at? i)) := by
  have hi : i < subscribers.length := (List.getElem?_eq_some_iff.1 h).1
  rw [said, own_notices (getElem?_new h), own_flatMap_parts steps hi]

theorem play_endable (subscribers : List Subscriber) :
    (play steps (ofSubscribers bus subscribers)).Endable := by
  rw [play_ofSubscribers]
  refine ⟨fun j => (ofSubscribers_attended bus subscribers j).actAll _, ?_, ?_⟩
  · rw [(actAll_lines _ _).putOff_eq]
    rfl
  · rw [listening, (actAll_eq _ _).2.2]
    rfl

end

/-- What workers do on their own is the parts of some steps. -/
theorem exists_parts_eq (size : Nat) {xs : List (Nat × Worker.Step)}
    (hxs : ∀ x ∈ xs, x.2.offered? = none) :
    ∃ more : List Step, (∀ step ∈ more, step.isWork = true) ∧
      more.flatMap (Step.parts size) = xs := by
  induction xs with
  | nil => exact ⟨[], fun _ h => absurd h List.not_mem_nil, rfl⟩
  | cons x xs ih =>
    rw [List.forall_mem_cons] at hxs
    obtain ⟨more, hmore, hparts⟩ := ih hxs.2
    obtain ⟨i, st⟩ := x
    cases st with
    | offer e => cases hxs.1
    | takeUp =>
      refine ⟨.takeUp i :: more, List.forall_mem_cons.2 ⟨rfl, hmore⟩, ?_⟩
      rw [List.flatMap_cons, hparts]
      rfl
    | finish =>
      refine ⟨.finish i :: more, List.forall_mem_cons.2 ⟨rfl, hmore⟩, ?_⟩
      rw [List.flatMap_cons, hparts]
      rfl

/-- What workers do on their own is some steps, and what these come to is up to the workers and the
bus alone. -/
theorem Works.exists_steps {s t t' : SubscriberSet} (h : Works t t')
    (hworkers : t.workers = s.workers) (hbus : t.bus = s.bus) :
    ∃ more : List Step, (∀ step ∈ more, step.isWork = true) ∧
      t'.workers = (play more s).workers ∧ t'.bus = (play more s).bus := by
  obtain ⟨xs, hxs, hworkers', hbus', -⟩ := h
  obtain ⟨more, hmore, hparts⟩ := exists_parts_eq s.size hxs
  obtain ⟨hplayed, hpublished, -⟩ := actAll_eq s xs
  refine ⟨more, hmore, ?_, ?_⟩
  · rw [play_eq, hparts, hplayed, hworkers', hworkers]
  · rw [play_eq, hparts, hpublished, hbus', hbus, hworkers]

/-- A worker that works on accepts nothing. -/
theorem accepted_append (subscriber : Subscriber) (steps : List Step) {more : List Step}
    (hmore : ∀ step ∈ more, step.isWork = true) (i : Nat) :
    Worker.accepted subscriber ((steps ++ more).filterMap (Step.at? i)) =
      Worker.accepted subscriber (steps.filterMap (Step.at? i)) := by
  have hnothing : ∀ st ∈ more.filterMap (Step.at? i), st.offered? = none := by
    intro st hst
    obtain ⟨step, hstep, hat⟩ := List.mem_filterMap.1 hst
    have hwork := hmore step hstep
    cases step with
    | emit | offer => cases hwork
    | takeUp j | finish j =>
      rw [Step.at?] at hat
      split at hat
      · cases hat
        rfl
      · cases hat
  rw [Worker.accepted, List.filterMap_append, Worker.offers_append,
    Worker.offers_eq_nil _ hnothing, List.append_nil, Worker.accepted]

/-- **What becomes of the events that are handed to subscribers**, in any interleaving of emissions
and work. What is published is what the workers say, in that order. What a worker goes through and
says is up to its subscriber and to the steps at that worker alone, and keeps to the `Account`: as
long as it is there, it has handled, has in hand and has in its queue exactly the events that found
its queue shorter than it may be, in the order of their emission; each event that it refused, and
each panic, was reported once. It is there until it handles an event that takes it down.

A set from which no listener is left can be ended, however its tasks stand in line: that takes some
rounds. It has ended only after each worker that is still there has handled all that it has
accepted, however many rounds were allowed, and nothing was done meanwhile but some more work. -/
theorem fan_out (bus : Bus Event) (subscribers : List Subscriber) (steps : List Step) :
    let s := play steps (ofSubscribers bus subscribers)
    s.bus = bus.publishAll ((said subscribers steps).map Prod.snd) ∧
    (∀ i subscriber, subscribers[i]? = some subscriber →
      let mine := steps.filterMap (Step.at? i)
      s.workers[i]? = some ((Worker.new subscriber).play mine) ∧
      own i (said subscribers steps) = (Worker.new subscriber).reports mine ∧
      Worker.Account subscriber mine) ∧
    s.Endable ∧
    ∀ t : SubscriberSet, t.workers = s.workers → t.bus = s.bus → t.Endable →
      (∀ rounds, t.remaining t.count ≤ rounds → ∃ t', t.shutdown rounds = some t') ∧
      ∀ rounds t', t.shutdown rounds = some t' → ∃ more,
        (∀ step ∈ more, step.isWork = true) ∧
        t'.workers = (play (steps ++ more) (ofSubscribers bus subscribers)).workers ∧
        t'.bus = (play (steps ++ more) (ofSubscribers bus subscribers)).bus ∧
        ∀ i subscriber, subscribers[i]? = some subscriber →
          ∃ w, t'.workers[i]? = some w ∧ (w.alive = true →
            w.handled = Worker.accepted subscriber (steps.filterMap (Step.at? i)) ∧ w.Rests) := by
  intro s
  refine ⟨play_bus bus subscribers steps, fun i subscriber h => ?_,
    play_endable bus steps subscribers, fun t hworkers hbus ht => ⟨fun rounds henough =>
      shutdown_finishes ht.listening_eq ht.attended ht.putOff_eq henough,
      fun rounds t' hended => ?_⟩⟩
  · exact ⟨play_worker bus steps h, own_said steps h, Worker.account _ _⟩
  · obtain ⟨hworks, hrest⟩ := shutdown_works hended
    obtain ⟨more, hmore, hworkers', hbus'⟩ := hworks.exists_steps hworkers hbus
    have happend : play more s = play (steps ++ more) (ofSubscribers bus subscribers) :=
      List.foldl_append.symm
    rw [happend] at hworkers' hbus'
    refine ⟨more, hmore, hworkers', hbus', fun i subscriber h => ?_⟩
    have hw := play_worker bus (steps ++ more) h
    rw [← hworkers'] at hw
    refine ⟨_, hw, fun halive => ?_⟩
    have hrests := hrest _ (List.mem_of_getElem? hw) halive
    have hcontents := (Worker.account subscriber _).contents_eq halive
    rw [accepted_append subscriber steps hmore, Worker.contents, hrests.current_eq,
      hrests.queue_eq, Option.toList_none, List.append_nil, List.append_nil] at hcontents
    exact ⟨hcontents, hrests⟩

/-- A bus with an observer. -/
def observed : Bus Event := { size := 64, receivers := [some 0] }

/-- A subscriber who wants one event at a time, and panics over the first one. -/
def skittish : Subscriber where
  name := "skittish"
  capacity := 1
  reaction past _ := if past.isEmpty then .panics (.text "boom") else .returns

/-- A queue for one event is full when a second one comes, and that is reported. The subscriber's
panic over the first event is reported, and keeps neither a third one, of the same contents, from
being handled nor the set from being ended. -/
theorem fan_out_to_a_short_queue :
    let started : Event := { kind := .serverStarted }
    let steps : List Step :=
      [.emit started, .emit { kind := .serverStopped }, .takeUp 0, .finish 0, .emit started]
    let s := play steps (ofSubscribers observed [skittish])
    s.bus = observed.publishAll [.overflow "skittish" "full", .panicked "skittish" "boom"] ∧
      ∃ t w, s.shutdown 9 = some t ∧ t.workers[0]? = some w ∧ w.handled = [started, started] := by
  intro started steps s
  obtain ⟨hbus, -, hendable, hends⟩ := fan_out observed [skittish] steps
  have hsaid : said [skittish] steps =
      [(0, .overflow "skittish" "full"), (0, .panicked "skittish" "boom")] := by decide
  rw [hsaid] at hbus
  obtain ⟨hfinishes, hended⟩ := hends s rfl rfl hendable
  obtain ⟨t, hshutdown⟩ := hfinishes 9 (by decide)
  obtain ⟨more, -, -, -, hworkers⟩ := hended 9 t hshutdown
  obtain ⟨w, hw, hhandled⟩ := hworkers 0 skittish rfl
  have halive : (s.shutdown 9).all (fun t => t.workers.all Worker.alive) = true := by decide
  rw [hshutdown] at halive
  have hthere : w.alive = true := List.all_eq_true.1 halive w (List.mem_of_getElem? hw)
  have haccepted : Worker.accepted skittish (steps.filterMap (Step.at? 0)) =
      [started, started] := by decide
  exact ⟨hbus, t, w, hshutdown, hw, (hhandled hthere).1.trans haccepted⟩

/-- A subscriber who panics before it starts to handle that a server was started. -/
def fragile : Subscriber where
  name := "fragile"
  capacity := 4
  reaction _ e := if e.kind = .serverStarted then .takesDown else .returns

/-- Two events find room in a queue, and the subscriber panics over the first one. The second one is
lost, also in the end, and nothing is said of the panic. -/
theorem lost_with_the_worker :
    let started : Event := { kind := .serverStarted }
    let stopped : Event := { kind := .serverStopped }
    let steps : List Step := [.emit started, .emit stopped, .takeUp 0, .finish 0]
    let s := play steps (ofSubscribers observed [fragile])
    Worker.accepted fragile (steps.filterMap (Step.at? 0)) = [started, stopped] ∧
      s.workers.map Worker.contents = [[started]] ∧
      (s.shutdown 9).map (fun t => t.workers.map Worker.handled) = some [[started]] ∧
      said [fragile] steps = [] := by
  decide

end Overseer.SubscriberSet
