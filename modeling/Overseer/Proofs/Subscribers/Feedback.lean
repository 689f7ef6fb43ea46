import Overseer.Proofs.Subscribers.Circuit

/-!
# Reports that come back

A report is published on the bus that the listeners read from, so the subscribers are told of it as
of anything else, and may have something to report of that. A report of a dropped event is not
dropped aloud; but a panic is reported whatever the subscriber panicked over.

Where each report is of a lower rank than what it is about, reports die out, however the listeners
and the workers come between each other (`reports_die_out`): what is published has an aftermath of
so many moves at most. It is enough that nobody panics over a report (`fades_of_calm`). A subscriber
that panics over reports too is never done with them (`never_settles`), and a single event that is
published has it report for ever (`panics_feed_back`).
-/

namespace Overseer

/-- What is published over an event is of a lower rank than the event. -/
def Fades (rank : Event → Nat) (subscribers : List Subscriber) : Prop :=
  ∀ s ∈ subscribers, ∀ e e', s.Answers e e' → rank e' < rank e

/-- Reports of dropped events come last, and before them reports of panics. -/
def reportRank (e : Event) : Nat := if e.isOverflow then 0 else if e.isPanic then 1 else 2

/-- **Where nobody panics over a report,** reports fade. -/
theorem fades_of_calm {subscribers : List Subscriber}
    (hcalm : ∀ s ∈ subscribers, ∀ past e, (e.isOverflow || e.isPanic) = true →
      ∀ panic, s.reaction past e ≠ .panics panic) : Fades reportRank subscribers := by
  intro s hs e e' hanswers
  cases hanswers with
  | refused refusal hoverflow =>
    show 0 < reportRank e
    rw [reportRank, hoverflow, if_neg nofun]
    split <;> omega
  | panicked hreaction =>
    have hnot : (e.isOverflow || e.isPanic) = false :=
      Bool.eq_false_iff.2 fun hreport => hcalm s hs _ e hreport _ hreaction
    rw [Bool.or_eq_false_iff] at hnot
    show 1 < reportRank e
    rw [reportRank, hnot.1, hnot.2, if_neg nofun, if_neg nofun]
    omega

/-- What may come of the reports over an event of some rank: each listener reads such a report and
offers it to each of the workers, which take it up and finish it, and report of it. -/
def aftermath (listeners size : Nat) : Nat → Nat
  | 0 => 0
  | rank + 1 => listeners * (size * (aftermath listeners size rank + 3) + 1)

theorem aftermath_mono (listeners size : Nat) : Monotone (aftermath listeners size) := by
  refine monotone_nat_of_le_succ fun rank => ?_
  induction rank with
  | zero => exact Nat.zero_le _
  | succ rank ih =>
    exact Nat.mul_le_mul_left _
      (Nat.add_le_add_right (Nat.mul_le_mul_left _ (Nat.add_le_add_right ih 3)) 1)

namespace Circuit

variable {t t' : Circuit} {m : Move} {moves : List Move}

/-! ## Runs and what they cost -/

theorem Runs.frame (h : t.Runs moves t') (hs : t.Sound) : Frame t t' := by
  induction h with
  | nil => exact ⟨hs, rfl, rfl, rfl⟩
  | cons _ hgo _ ih =>
    have hframe := (goes_of_go? hgo).frame hs
    exact hframe.trans (ih hframe.sound)

theorem Runs.keepsUp (h : t.Runs moves t') : t'.KeepsUp := by
  induction h with
  | nil hkeeps => exact hkeeps
  | cons _ _ _ ih => exact ih

/-- What somebody publishes is charged for. -/
theorem charge_publish (extra : Event → Nat) (hs : t.Sound) (e : Event) :
    ({ t with set := t.set.publish e } : Circuit).charge extra ≤
      t.charge extra + t.hands.length * toll extra t.set.workers.length e := by
  have hlisteners : listenersDue extra (t.set.publish e) t.hands ≤ _ :=
    listenersDue_publish extra t.hands hs.set rfl rfl rfl
  have hworkers : (t.set.publish e).workers = t.set.workers := rfl
  simp only [charge, hworkers]
  omega

theorem accepted_publish_le (b : Bus Event) (e : Event) :
    (b.publish e).accepted ≤ b.accepted + 1 := by
  rw [Bus.publish_accepted]
  split <;> omega

/-- The price of what is published in some moves, and of the moves that publish it. -/
def cost (price : Event → Nat) (moves : List Move) : Nat :=
  ((moves.filterMap Move.published?).map fun e => price e + 1).sum

theorem cost_cons (price : Event → Nat) (m : Move) (moves : List Move) :
    cost price (m :: moves) = cost price [m] + cost price moves := by
  rw [cost, cost, cost, ← List.sum_append, ← List.map_append, ← List.filterMap_append]
  rfl

/-- How many moves may come of the reports over an event. -/
def reserve (rank : Event → Nat) (listeners size : Nat) (e : Event) : Nat :=
  aftermath listeners size (rank e)

/-- How many moves may come of an event that is published. -/
def priceOf (rank : Event → Nat) (listeners size : Nat) (e : Event) : Nat :=
  aftermath listeners size (rank e + 1)

section
variable {rank : Event → Nat} {subscribers : List Subscriber} {listeners : Nat}

/-- **A move is paid for**, by what is published in it if it is a publication, and else by what was
published before. -/
theorem Goes.cost_le (h : Goes t m t') (hfades : Fades rank subscribers) (hs : t.Sound)
    (hkeeps : t.KeepsUp) (hsubscribers : t.set.workers.map Worker.subscriber = subscribers)
    (hlisteners : t.hands.length = listeners) :
    t'.charge (reserve rank listeners subscribers.length) + 1 ≤
        t.charge (reserve rank listeners subscribers.length) +
          cost (priceOf rank listeners subscribers.length) [m] ∧
      t'.set.bus.accepted ≤ t.set.bus.accepted + 1 := by
  have hsize : t.set.workers.length = subscribers.length := by
    simpa using congrArg List.length hsubscribers
  cases hm : m.published? with
  | some e =>
    cases h with
    | publishes e =>
      have hpublish := charge_publish (reserve rank listeners subscribers.length) hs e
      rw [hlisteners, hsize] at hpublish
      have hcost : cost (priceOf rank listeners subscribers.length) [.publish e] =
          listeners * toll (reserve rank listeners subscribers.length) subscribers.length e + 1 :=
        rfl
      rw [hcost]
      exact ⟨by omega, accepted_publish_le t.set.bus e⟩
    | reads | lags | offers | takesUp | finishes => cases hm
  | none =>
    obtain ⟨hsame, hpays⟩ | ⟨s, hmem, e, e', hanswers, hbus, hpays⟩ :=
      h.pays (reserve rank listeners subscribers.length) hm hs hkeeps
    · exact ⟨Nat.le_trans hpays (Nat.le_add_right _ _), by omega⟩
    · have hlower : rank e' + 1 ≤ rank e := hfades s (hsubscribers ▸ hmem) e e' hanswers
      have hafter :
          listeners * toll (reserve rank listeners subscribers.length) subscribers.length e' ≤
            reserve rank listeners subscribers.length e :=
        aftermath_mono listeners subscribers.length hlower
      rw [hlisteners, hsize] at hpays
      rw [hbus]
      exact ⟨by omega, accepted_publish_le t.set.bus e'⟩

/-- **A run is paid for** by what is published in it. -/
theorem Runs.cost_le (h : t.Runs moves t') (hfades : Fades rank subscribers) (hs : t.Sound)
    (hsubscribers : t.set.workers.map Worker.subscriber = subscribers)
    (hlisteners : t.hands.length = listeners) :
    t'.charge (reserve rank listeners subscribers.length) + moves.length ≤
        t.charge (reserve rank listeners subscribers.length) +
          cost (priceOf rank listeners subscribers.length) moves ∧
      t'.set.bus.accepted ≤ t.set.bus.accepted + moves.length := by
  induction h with
  | nil => exact ⟨Nat.le_refl _, Nat.le_refl _⟩
  | cons hkeeps hgo _ ih =>
    have hgoes := goes_of_go? hgo
    have hframe := hgoes.frame hs
    obtain ⟨hcharge, haccepted⟩ := ih hframe.sound (hframe.subscribers_eq.trans hsubscribers)
      (hframe.hands_eq.trans hlisteners)
    obtain ⟨hmove, hone⟩ := hgoes.cost_le hfades hs hkeeps hsubscribers hlisteners
    rw [cost_cons, List.length_cons]
    exact ⟨by omega, by omega⟩

end

section
variable (capacity : Nat) (subscribers : List Subscriber) (listeners : Nat)

theorem start_subscribers :
    (start capacity subscribers listeners).set.workers.map Worker.subscriber = subscribers := by
  rw [start_workers, List.map_map]
  exact List.map_id _

/-- Nothing is left to do at the start. -/
theorem start_charge (extra : Event → Nat) :
    (start capacity subscribers listeners).charge extra = 0 := by
  refine Nat.add_eq_zero_iff.2 ⟨Finset.sum_eq_zero fun l _ => ?_, Finset.sum_eq_zero fun i _ => ?_⟩
  · rw [listenerDue, start_unread]
    have hempty : (start capacity subscribers listeners).hands[l]?.getD [] = [] := by
      show (List.replicate listeners [])[l]?.getD [] = []
      rw [List.getElem?_replicate]
      split <;> rfl
    rw [hempty]
    rfl
  · rw [start_workers, List.getElem?_map]
    cases subscribers[i]? <;> rfl

end

end Circuit

/-! ## Reports that die out -/

/-- **Reports die out** where they fade, however the listeners and the workers come between each
other: a run, and so the number of events on the bus, is bounded by what somebody publishes in it.
It can go on until nothing is left to do. -/
theorem reports_die_out (capacity listeners : Nat) (subscribers : List Subscriber)
    {rank : Event → Nat} (hfades : Fades rank subscribers) {moves : List Circuit.Move} {t : Circuit}
    (hruns : (Circuit.start capacity subscribers listeners).Runs moves t) :
    moves.length ≤ Circuit.cost (Circuit.priceOf rank listeners subscribers.length) moves ∧
      t.set.bus.accepted ≤ moves.length ∧
      ((∀ m, m.published? = none → t.go? m = none) → t.Quiescent) := by
  have hs := Circuit.start_sound capacity subscribers listeners
  obtain ⟨hcharge, haccepted⟩ := hruns.cost_le hfades hs
    (Circuit.start_subscribers capacity subscribers listeners) List.length_replicate
  rw [Circuit.start_charge, Nat.zero_add] at hcharge
  rw [Circuit.start_accepted, Nat.zero_add] at haccepted
  exact ⟨Nat.le_trans (Nat.le_add_left _ _) hcharge, haccepted,
    (hruns.frame hs).sound.quiescent hruns.keepsUp⟩

/-! ## Reports that do not -/

/-- A subscriber that panics over whatever it is told. -/
def Subscriber.Touchy (s : Subscriber) : Prop :=
  ∀ past e, ∃ panic, s.reaction past e = .panics panic

namespace Worker

variable {w : Worker} {e : Event}

theorem step_alive_of_touchy (halive : w.alive = true) (htouchy : w.subscriber.Touchy) (st : Step) :
    (w.step st).alive = true := by
  have heffect := step_effect halive st
  generalize w.step st = w' at heffect ⊢
  cases heffect with
  | accepts | refuses | waits | takesUp | rests | handles => exact halive
  | goesDown _ hreaction =>
    obtain ⟨panic, hpanics⟩ := htouchy _ _
    rw [hpanics] at hreaction
    cases hreaction

/-- A worker that is offered an event has something to do, whether it accepts the event or has no
room for it. -/
theorem not_rests_of_offer (halive : w.alive = true) : ¬(w.step (.offer e)).Rests := by
  have heffect := step_effect halive (.offer e)
  generalize w.step (.offer e) = w' at heffect ⊢
  intro hrests
  cases heffect with
  | accepts => exact absurd hrests.queue_eq (by simp)
  | refuses hroom => exact absurd hrests.hasRoom (by rw [hroom]; nofun)

theorem not_rests_of_takeUp (halive : w.alive = true) (hbusy : ¬w.Rests) :
    ¬(w.step .takeUp).Rests := by
  have heffect := step_effect halive .takeUp
  generalize w.step .takeUp = w' at heffect ⊢
  cases heffect with
  | waits => exact hbusy
  | takesUp => exact fun hrests => nomatch hrests.current_eq

end Worker

namespace Circuit

variable {t t' : Circuit} {m : Move} {moves : List Move} {i l : Nat}

/-- A touchy subscriber is exposed to what is published: its worker is there, and so is a
listener. -/
structure Exposed (i l : Nat) (t : Circuit) : Prop where
  touchy : ∃ w, t.set.workers[i]? = some w ∧ w.alive = true ∧ w.subscriber.Touchy
  attached : ∃ receiver, t.set.receiver? l = some receiver

/-- An event is on its way to a worker: it is not read by a listener, or the listener has it in
hand, or it is at the worker. -/
inductive Astir (i l : Nat) (t : Circuit) : Prop
  | unread (h : t.set.unread l ≠ [])
  | inHand {e : Event} (h : (i, e) ∈ t.hands[l]?.getD [])
  | atWorker {w : Worker} (hw : t.set.workers[i]? = some w) (h : ¬w.Rests)

theorem Astir.not_quiescent (h : Astir i l t) : ¬t.Quiescent := by
  intro hquiet
  cases h with
  | unread h => exact h (hquiet.unread_eq l)
  | @inHand e h =>
    cases hhand : t.hands[l]? with
    | none =>
      rw [hhand] at h
      cases h
    | some hand =>
      rw [hhand, hquiet.hand_eq hand (List.mem_of_getElem? hhand)] at h
      cases h
  | atWorker hw h => exact h (hquiet.rests _ (List.mem_of_getElem? hw))

/-- What was published is not read yet. -/
theorem Exposed.astir_of_publish (h : Exposed i l t) (hs : t.Sound) {e : Event}
    {set : SubscriberSet} {hands : List (List (Nat × Event))} (hbus : set.bus = t.set.bus.publish e)
    (hlisteners : set.listeners = t.set.listeners) : Astir i l { set, hands } := by
  obtain ⟨receiver, hreceiver⟩ := h.attached
  obtain ⟨older, holder⟩ := hs.set.unread_publish hreceiver hbus hlisteners
  exact .unread (by rw [holder]; simp)

/-- What happens at a worker does not let a touchy subscriber off. -/
theorem Exposed.act (h : Exposed i l t) (x : Nat × Worker.Step)
    (hands : List (List (Nat × Event))) : Exposed i l { set := t.set.act x, hands } := by
  have hacts := SubscriberSet.act_acts t.set x
  obtain ⟨w, hw, halive, htouchy⟩ := h.touchy
  refine ⟨⟨if x.1 = i then w.step x.2 else w, ?_, ?_, ?_⟩, ?_⟩
  · rw [hacts.workers_eq, SubscriberSet.getElem?_advance, hw, Option.map_some]
  · split
    · exact Worker.step_alive_of_touchy halive htouchy x.2
    · exact halive
  · split
    · rwa [Worker.step_subscriber]
    · exact htouchy
  · show ∃ receiver, (t.set.act x).receiver? l = some receiver
    rw [SubscriberSet.receiver?, hacts.listeners_eq]
    exact h.attached

theorem Goes.exposed (h : Goes t m t') (hexposed : Exposed i l t) : Exposed i l t' := by
  cases h with
  | publishes | reads | lags => exact ⟨hexposed.touchy, hexposed.attached⟩
  | offers | takesUp | finishes => exact hexposed.act _ _

/-- **What happens at a worker** leaves something on its way to a touchy subscriber, if listeners
keep in hand what they do not offer to it. -/
theorem Astir.act (h : Astir i l t) (hexposed : Exposed i l t) (hs : t.Sound)
    {x : Nat × Worker.Step} {hands : List (List (Nat × Event))}
    (hhands : ∀ e, (i, e) ∈ t.hands[l]?.getD [] →
      (i, e) ∈ hands[l]?.getD [] ∨ x = (i, .offer e)) :
    Astir i l { set := t.set.act x, hands } := by
  have hacts := SubscriberSet.act_acts t.set x
  obtain ⟨hsilent, hbus⟩ | ⟨w, e, -, -, hbus⟩ := hacts.published
  · have hworker {w : Worker} (hw : t.set.workers[i]? = some w) :
        (t.set.act x).workers[i]? = some (if x.1 = i then w.step x.2 else w) := by
      rw [hacts.workers_eq, SubscriberSet.getElem?_advance, hw, Option.map_some]
    obtain ⟨w, hw, halive, htouchy⟩ := hexposed.touchy
    cases h with
    | unread h => exact .unread (by rwa [SubscriberSet.unread_congr hbus hacts.listeners_eq])
    | @inHand e h =>
      obtain hkept | rfl := hhands e h
      · exact .inHand hkept
      · refine .atWorker (hworker hw) ?_
        rw [if_pos rfl]
        exact Worker.not_rests_of_offer halive
    | @atWorker w' hw' h =>
      cases Option.some.inj (hw.symm.trans hw')
      refine .atWorker (hworker hw) ?_
      split
      · next hi =>
        obtain ⟨j, st⟩ := x
        subst hi
        cases st with
        | offer e => exact Worker.not_rests_of_offer halive
        | takeUp => exact Worker.not_rests_of_takeUp halive h
        | finish =>
          -- nothing is said, so the worker has nothing in hand, since the subscriber is touchy
          have hnone : w.current = none := by
            by_contra hcurrent
            obtain ⟨e, he⟩ := Option.ne_none_iff_exists'.1 hcurrent
            obtain ⟨panic, hpanic⟩ := htouchy w.handled e
            have := hsilent w hw
            rw [Worker.report, he, Option.bind_some, Worker.panicReport, hpanic] at this
            cases this
          rwa [Worker.step, Worker.finished_of_none hnone]
      · exact h
  · exact hexposed.astir_of_publish hs hbus hacts.listeners_eq

/-- **Something stays on its way** to a touchy subscriber whatever is done, once something was
published. -/
theorem Goes.astir (h : Goes t m t') (hexposed : Exposed i l t) (hs : t.Sound)
    (hkeeps : t.KeepsUp) (hastir : Astir i l t ∨ m.published? ≠ none) : Astir i l t' := by
  cases h with
  | publishes e => exact hexposed.astir_of_publish hs rfl rfl
  | @reads l' receiver e bus hhand hreceiver hreceive =>
    obtain ⟨w, hw, -⟩ := hexposed.touchy
    have hi := (List.getElem?_eq_some_iff.1 hw).1
    obtain hastir := hastir.resolve_right fun h => h rfl
    by_cases hl : l = l'
    · subst hl
      refine .inHand (e := e) ?_
      rw [List.getElem?_set_self (List.getElem?_eq_some_iff.1 hhand).1]
      exact List.mem_map.2 ⟨i, List.mem_range.2 hi, rfl⟩
    · cases hastir with
      | unread h =>
        exact .unread (by rwa [hs.set.unread_read_of_ne hreceiver hreceive hl])
      | inHand h => exact .inHand (by rwa [List.getElem?_set_ne (Ne.symm hl)])
      | atWorker hw h => exact .atWorker hw h
  | lags hreceiver hreceive =>
    exact absurd ⟨_, hreceiver, Bus.lags_of_receive hreceive⟩ (hkeeps _)
  | @offers l' j e rest hhand =>
    refine (hastir.resolve_right fun h => h rfl).act hexposed hs fun e' he' => ?_
    by_cases hl : l = l'
    · subst hl
      rw [hhand] at he'
      obtain he' | he' := List.mem_cons.1 he'
      · cases he'
        exact .inr rfl
      · rw [List.getElem?_set_self (List.getElem?_eq_some_iff.1 hhand).1]
        exact .inl he'
    · exact .inl (by rwa [List.getElem?_set_ne (Ne.symm hl)])
  | takesUp | finishes =>
    exact (hastir.resolve_right fun h => h rfl).act hexposed hs fun e he => .inl he

theorem Runs.astir (h : t.Runs moves t') (hexposed : Exposed i l t) (hs : t.Sound)
    (hastir : Astir i l t ∨ moves.filterMap Move.published? ≠ []) : Astir i l t' := by
  induction h with
  | nil => exact hastir.resolve_right fun h => h rfl
  | @cons t t₁ t₂ m moves hkeeps hgo _ ih =>
    have hgoes := goes_of_go? hgo
    refine ih (hgoes.exposed hexposed) (hgoes.frame hs).sound ?_
    by_cases hm : m.published? = none
    · rw [List.filterMap_cons, hm] at hastir
      exact hastir.imp_left fun h => hgoes.astir hexposed hs hkeeps (.inl h)
    · exact .inl (hgoes.astir hexposed hs hkeeps (.inr hm))

/-- **No move is made for nothing.** Between two publications, by whomever, there are only so many
moves. -/
theorem Goes.length_le (h : Goes t m t') (hs : t.Sound) (hkeeps : t.KeepsUp)
    (hattached : ∃ receiver, t.set.receiver? l = some receiver) :
    t'.charge (fun _ => 0) + 1 + t.set.bus.accepted *
        (t.hands.length * (t.set.workers.length * 3 + 1) + 1) ≤
      t.charge (fun _ => 0) + t'.set.bus.accepted *
        (t.hands.length * (t.set.workers.length * 3 + 1) + 1) := by
  obtain ⟨receiver, hreceiver⟩ := hattached
  obtain ⟨next, hnext⟩ := hs.set.live hreceiver
  have haccepted (e : Event) : (t.set.bus.publish e).accepted = t.set.bus.accepted + 1 := by
    rw [Bus.publish_accepted, if_pos (Bus.observed_of_next hnext)]
  cases hm : m.published? with
  | some e =>
    cases h with
    | publishes e =>
      have hpublish := charge_publish (fun _ => 0) hs e
      rw [show (t.set.publish e).bus = t.set.bus.publish e from rfl, haccepted, Nat.succ_mul]
      simp only [toll, Nat.zero_add] at hpublish
      omega
    | reads | lags | offers | takesUp | finishes => cases hm
  | none =>
    obtain ⟨hsame, hpays⟩ | ⟨s, hmem, e, e', hanswers, hbus, hpays⟩ :=
      h.pays (fun _ => 0) hm hs hkeeps
    · rw [hsame]
      omega
    · rw [hbus, haccepted, Nat.succ_mul]
      simp only [toll, Nat.zero_add] at hpays
      omega

theorem Runs.length_le (h : t.Runs moves t') (hs : t.Sound)
    (hattached : ∃ receiver, t.set.receiver? l = some receiver) :
    t'.charge (fun _ => 0) + moves.length + t.set.bus.accepted *
        (t.hands.length * (t.set.workers.length * 3 + 1) + 1) ≤
      t.charge (fun _ => 0) + t'.set.bus.accepted *
        (t.hands.length * (t.set.workers.length * 3 + 1) + 1) := by
  induction h with
  | nil => exact Nat.le_refl _
  | cons hkeeps hgo _ ih =>
    have hgoes := goes_of_go? hgo
    have hframe := hgoes.frame hs
    have hmove := hgoes.length_le hs hkeeps hattached
    have hrest := ih hframe.sound (by rwa [SubscriberSet.receiver?, hframe.listeners_eq])
    rw [hframe.hands_eq, hframe.size_eq] at hrest
    rw [List.length_cons]
    omega

end Circuit

/-- **A touchy subscriber never settles.** Once an event was published, a run goes on for ever,
however the listeners and the workers come between each other, and adds to the bus as it goes on:
there are only so many moves for each event that is published on it. -/
theorem never_settles (capacity listeners : Nat) (subscribers : List Subscriber) {s : Subscriber}
    (hmem : s ∈ subscribers) (htouchy : s.Touchy) (hattached : 0 < listeners)
    {moves : List Circuit.Move} {t : Circuit}
    (hruns : (Circuit.start capacity subscribers listeners).Runs moves t)
    (hpublished : moves.filterMap Circuit.Move.published? ≠ []) :
    (¬t.Quiescent ∧ ∃ m t', m.published? = none ∧ t.go? m = some t') ∧
      moves.length ≤
        t.set.bus.accepted * (listeners * (subscribers.length * 3 + 1) + 1) := by
  obtain ⟨i, hi⟩ := List.getElem?_of_mem hmem
  have hs := Circuit.start_sound capacity subscribers listeners
  have hreceiver := Circuit.start_receiver capacity subscribers listeners hattached
  have hexposed : Circuit.Exposed i 0 (Circuit.start capacity subscribers listeners) := by
    refine ⟨⟨.new s, ?_, rfl, htouchy⟩, hreceiver⟩
    rw [Circuit.start_workers, List.getElem?_map, hi, Option.map_some]
  have hbusy := (hruns.astir hexposed hs (.inr hpublished)).not_quiescent
  refine ⟨⟨hbusy, ?_⟩, ?_⟩
  · by_contra hstuck
    refine hbusy ((hruns.frame hs).sound.quiescent hruns.keepsUp fun m hm => ?_)
    cases hgo : t.go? m with
    | none => rfl
    | some t' => exact absurd ⟨m, t', hm, hgo⟩ hstuck
  · have hlength := hruns.length_le hs hreceiver
    rw [Circuit.start_charge, Circuit.start_accepted, Circuit.start_workers, List.length_map,
      show (Circuit.start capacity subscribers listeners).hands.length = listeners from
        List.length_replicate] at hlength
    omega

/-! ## A single subscriber -/

namespace Circuit

/-- A worker with a listener, on a bus that retains the last event. -/
def single (next accepted : Nat) (last : Event) (w : Worker) (hand : List (Nat × Event)) :
    Circuit where
  set :=
    { bus := { size := 1, accepted, retained := [last], receivers := [some next] }
      workers := [w]
      listeners := [{ receiver := some 0 }]
      ready := [.worker 0, .listener 0] }
  hands := [hand]

/-- An event goes round. -/
def round : List Move := [.read 0, .offer 0, .takeUp 0, .finish 0]

variable {s : Subscriber} {next accepted : Nat} {e : Event} {w : Worker}
  {hand : List (Nat × Event)} {handled : List Event}

theorem single_keepsUp (h : accepted ≤ next + 1) : (single next accepted e w hand).KeepsUp := by
  rintro l ⟨receiver, hreceiver, old, hold, hlt⟩
  cases l with
  | zero =>
    cases hreceiver
    cases hold
    exact absurd hlt (Nat.not_lt.2 (Nat.sub_le_of_le_add h))
  | succ l => cases hreceiver

theorem start_publish (s : Subscriber) (e : Event) :
    (start 1 [s] 1).go? (.publish e) = some (single 0 1 e { subscriber := s } []) := by
  have hone : Nat.nextPowerOfTwo 1 = 1 := by decide +kernel
  rw [start, Bus.ofCapacity, hone]
  rfl

theorem single_read :
    (single next (next + 1) e w []).go? (.read 0) =
      some (single (next + 1) (next + 1) e w [(0, e)]) := by
  simp [go?, single, SubscriberSet.receiver?, Bus.receive, Bus.oldest]

/-- A worker that has nothing to do is told of an event, and takes it up. -/
theorem single_runs (hquiet : w.Rests) (halive : w.alive = true) :
    (single next (next + 1) e w []).Runs [.read 0, .offer 0, .takeUp 0]
      (single (next + 1) (next + 1) e { w with current := some e } []) := by
  have hoffer : (single (next + 1) (next + 1) e w [(0, e)]).go? (.offer 0) =
      some (single (next + 1) (next + 1) e { w with queue := [e] } []) := by
    simp [go?, single, SubscriberSet.emitTo, Worker.offer_of_room halive hquiet.hasRoom,
      hquiet.queue_eq, SubscriberSet.wake]
  have htakeUp : (single (next + 1) (next + 1) e { w with queue := [e] } []).go? (.takeUp 0) =
      some (single (next + 1) (next + 1) e { w with current := some e } []) := by
    simp [go?, single, SubscriberSet.takeUp, hquiet.current_eq, hquiet.queue_eq]
  exact .cons (single_keepsUp (Nat.le_refl _)) single_read
    (.cons (single_keepsUp (Nat.le_succ _)) hoffer
      (.cons (single_keepsUp (Nat.le_succ _)) htakeUp (.nil (single_keepsUp (Nat.le_succ _)))))

/-- The worker of a subscriber that has handled some events, when it has nothing to do. -/
def resting (s : Subscriber) (handled : List Event) : Worker := { subscriber := s, handled }

theorem resting_rests (s : Subscriber) (handled : List Event) : (resting s handled).Rests :=
  ⟨rfl, rfl⟩

/-- **A report takes the place of the event** that a subscriber panicked over. -/
theorem round_of_panics {panic : Panic} (h : s.reaction handled e = .panics panic) :
    (single next (next + 1) e (resting s handled) []).Runs round
      (single (next + 1) (next + 2) (.panicked s.name panic.message)
        (resting s (handled ++ [e])) []) := by
  have hfinish : (single (next + 1) (next + 1) e { resting s handled with current := some e }
      []).go? (.finish 0) = some (single (next + 1) (next + 2) (.panicked s.name panic.message)
        (resting s (handled ++ [e])) []) := by
    simp [go?, single, resting, SubscriberSet.finish, h, SubscriberSet.publish,
      SubscriberSet.wake, Bus.publish, Bus.observed]
  exact (single_runs (resting_rests s handled) rfl).append
    (.cons (single_keepsUp (Nat.le_succ _)) hfinish (.nil (single_keepsUp (Nat.le_refl _))))

/-- An event that a subscriber does not panic over is gone. -/
theorem round_of_returns (h : s.reaction handled e = .returns) :
    (single next (next + 1) e (resting s handled) []).Runs round
      (single (next + 1) (next + 1) e (resting s (handled ++ [e])) []) := by
  have hfinish : (single (next + 1) (next + 1) e { resting s handled with current := some e }
      []).go? (.finish 0) =
        some (single (next + 1) (next + 1) e (resting s (handled ++ [e])) []) := by
    simp [go?, single, resting, SubscriberSet.finish, h]
  exact (single_runs (resting_rests s handled) rfl).append
    (.cons (single_keepsUp (Nat.le_succ _)) hfinish (.nil (single_keepsUp (Nat.le_succ _))))

theorem start_runs (s : Subscriber) (e : Event) :
    (start 1 [s] 1).Runs [.publish e] (single 0 1 e (resting s []) []) := by
  refine .cons ?_ (start_publish s e) (.nil (single_keepsUp (Nat.le_refl _)))
  rintro l ⟨receiver, -, next, -, hlt⟩
  have hle : (start 1 [s] 1).set.bus.oldest ≤ (start 1 [s] 1).set.bus.accepted := Nat.sub_le ..
  rw [start_accepted] at hle
  omega

end Circuit

/-- Panics when a server has started. -/
def jumpy : Subscriber where
  name := "a"
  reaction _ e := if e.kind = .serverStarted then .panics (.text "boom") else .returns

/-- Its report comes back to it, and that is all: two events, in nine moves. -/
theorem reports_die_out_jumpy :
    ∃ t : Circuit, t.set.bus.accepted = 2 ∧
      (Circuit.start 1 [jumpy] 1).Runs
        (.publish { kind := .serverStarted } :: (Circuit.round ++ Circuit.round)) t ∧
      9 ≤ Circuit.cost (Circuit.priceOf reportRank 1 1)
        (.publish { kind := .serverStarted } :: (Circuit.round ++ Circuit.round)) ∧
      ((∀ m, m.published? = none → t.go? m = none) → t.Quiescent) := by
  have hfades : Fades reportRank [jumpy] := by
    refine fades_of_calm fun s hs _ e hreport panic => ?_
    rw [List.mem_singleton.1 hs]
    show (if e.kind = .serverStarted then Reaction.panics _ else .returns) ≠ _
    split
    · next hkind =>
      rw [Event.isOverflow, Event.isPanic, hkind] at hreport
      cases hreport
    · nofun
  have hruns := (Circuit.start_runs jumpy { kind := .serverStarted }).append
    ((Circuit.round_of_panics rfl).append (Circuit.round_of_returns rfl))
  obtain ⟨hlength, -, hquiet⟩ := reports_die_out 1 1 [jumpy] hfades hruns
  exact ⟨_, rfl, hruns, hlength, hquiet⟩

/-- Panics over everything. -/
def touchy : Subscriber where
  name := "a"
  reaction _ _ := .panics (.text "boom")

/-- **A panic that is reported for ever.** One event is published, and the listener never lags: a
run can be as long as one likes and publish as much, and none ever comes to an end. -/
theorem panics_feed_back :
    (∀ n, ∃ moves t,
      (Circuit.start 1 [touchy] 1).Runs (.publish { kind := .serverStarted } :: moves) t ∧
        (∀ m ∈ moves, m.published? = none) ∧ n < t.set.bus.accepted) ∧
      ∀ moves t,
        (Circuit.start 1 [touchy] 1).Runs (.publish { kind := .serverStarted } :: moves) t →
          ¬t.Quiescent := by
  have hround : ∀ m ∈ Circuit.round, m.published? = none := by decide
  have hrounds (n : Nat) : ∃ moves e handled,
      (Circuit.single 0 1 { kind := .serverStarted } (Circuit.resting touchy []) []).Runs moves
        (Circuit.single n (n + 1) e (Circuit.resting touchy handled) []) ∧
          ∀ m ∈ moves, m.published? = none := by
    induction n with
    | zero =>
      exact ⟨[], _, _, .nil (Circuit.single_keepsUp (Nat.le_refl _)), List.forall_mem_nil _⟩
    | succ n ih =>
      obtain ⟨moves, e, handled, hruns, hmoves⟩ := ih
      exact ⟨moves ++ Circuit.round, _, _, hruns.append (Circuit.round_of_panics rfl),
        List.forall_mem_append.2 ⟨hmoves, hround⟩⟩
  refine ⟨fun n => ?_, fun moves t hruns => ?_⟩
  · obtain ⟨moves, e, handled, hruns, hmoves⟩ := hrounds n
    exact ⟨moves, _, (Circuit.start_runs touchy _).append hruns, hmoves, Nat.lt_succ_self n⟩
  · exact (never_settles 1 1 [touchy] (List.mem_singleton_self _) (fun _ _ => ⟨_, rfl⟩)
      Nat.zero_lt_one hruns (List.cons_ne_nil _ _)).1.1

end Overseer
