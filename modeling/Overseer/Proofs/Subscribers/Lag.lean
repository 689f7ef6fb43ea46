import Overseer.Subscribers.Basic

/-!
# Listeners that lag

A listener that has missed some events reports that on the bus that it reads from. At that moment
the ring of the bus is full, so the report takes the place of the very event that the listener would
have read next, and it lags by one event again. It never comes out of this by itself, nor with the
help of others: what they do can only push more events out of the ring (`lags_forever`). So a
listener that has been overrun once forwards nothing any more (`forward_of_lags`), also none of the
events that were still there when it noticed.
-/

namespace Overseer

namespace Bus

variable {α : Type} {b : Bus α} {e : α} {receiver : Nat}

/-- The number of the event that a receiver reads next. -/
def next? (b : Bus α) (receiver : Nat) : Option Nat := b.receivers[receiver]?.join

/-- A bus retains as many of the accepted events as there is room for, and nobody has read what was
not accepted. -/
structure Ring (b : Bus α) : Prop where
  size_pos : 0 < b.size
  length_eq : b.retained.length = min b.accepted b.size
  next_le {receiver next : Nat} (h : b.next? receiver = some next) : next ≤ b.accepted

/-- A receiver lags: the event that it would read next is not retained any more. -/
def Lags (b : Bus α) (receiver : Nat) : Prop :=
  ∃ next, b.next? receiver = some next ∧ next < b.oldest

theorem Ring.oldest_eq (hb : b.Ring) : b.oldest = b.accepted - b.size := by
  rw [oldest, hb.length_eq]
  omega

theorem ofCapacity_ring (capacity : Nat) : (ofCapacity capacity : Bus α).Ring where
  size_pos := Nat.pos_of_isPowerOfTwo (Nat.isPowerOfTwo_nextPowerOfTwo capacity)
  length_eq := rfl
  next_le h := by simp [next?, ofCapacity] at h

/-! ## Publishing -/

theorem observed_of_next {next : Nat} (h : b.next? receiver = some next) : b.observed = true := by
  have hmem : some next ∈ b.receivers := by
    rw [next?, Option.join_eq_some_iff] at h
    exact List.mem_of_getElem? h
  exact List.any_eq_true.2 ⟨some next, hmem, rfl⟩

theorem publish_receivers (b : Bus α) (e : α) : (b.publish e).receivers = b.receivers := by
  rw [publish]
  split <;> rfl

theorem publish_size (b : Bus α) (e : α) : (b.publish e).size = b.size := by
  rw [publish]
  split <;> rfl

theorem publish_next (b : Bus α) (e : α) (receiver : Nat) :
    (b.publish e).next? receiver = b.next? receiver := by
  rw [next?, publish_receivers, next?]

theorem publish_accepted (b : Bus α) (e : α) :
    (b.publish e).accepted = b.accepted + if b.observed then 1 else 0 := by
  rw [publish]
  split <;> rfl

theorem Ring.publish (hb : b.Ring) (e : α) : (b.publish e).Ring where
  size_pos := by
    rw [publish_size]
    exact hb.size_pos
  length_eq := by
    have hlength := hb.length_eq
    have hpos := hb.size_pos
    rw [Bus.publish]
    split
    · simp only [List.length_drop, List.length_append, List.length_singleton]
      omega
    · exact hlength
  next_le h := by
    rw [publish_next] at h
    have hle := hb.next_le h
    rw [publish_accepted]
    omega

/-- The newest event is always retained. -/
theorem Ring.publish_getLast (hb : b.Ring) (hobserved : b.observed = true) (e : α) :
    (b.publish e).retained.getLast? = some e := by
  have hpos := hb.size_pos
  rw [Bus.publish, if_pos hobserved, List.getLast?_drop, if_neg, List.getLast?_concat]
  rw [List.length_append, List.length_singleton]
  omega

/-- A receiver that lags goes on to lag when something is published. -/
theorem Lags.publish (hb : b.Ring) (h : b.Lags receiver) (e : α) : (b.publish e).Lags receiver := by
  obtain ⟨next, hnext, hlt⟩ := h
  refine ⟨next, by rw [publish_next, hnext], ?_⟩
  rw [hb.oldest_eq] at hlt
  rw [(hb.publish e).oldest_eq, publish_accepted, publish_size]
  omega

theorem Ring.publishAll (hb : b.Ring) (es : List α) : (b.publishAll es).Ring := by
  induction es generalizing b with
  | nil => exact hb
  | cons e es ih => exact ih (hb.publish e)

theorem Lags.publishAll (hb : b.Ring) (h : b.Lags receiver) (es : List α) :
    (b.publishAll es).Lags receiver := by
  induction es generalizing b with
  | nil => exact h
  | cons e es ih => exact ih (hb.publish e) (h.publish hb e)

theorem publishAll_next (b : Bus α) (es : List α) (receiver : Nat) :
    (b.publishAll es).next? receiver = b.next? receiver := by
  induction es generalizing b with
  | nil => rfl
  | cons e es ih => exact (ih (b.publish e)).trans (publish_next b e receiver)

theorem publishAll_size (b : Bus α) (es : List α) : (b.publishAll es).size = b.size := by
  induction es generalizing b with
  | nil => rfl
  | cons e es ih => exact (ih (b.publish e)).trans (publish_size b e)

theorem publishAll_accepted {next : Nat} (h : b.next? receiver = some next) (es : List α) :
    (b.publishAll es).accepted = b.accepted + es.length := by
  induction es generalizing b with
  | nil => rfl
  | cons e es ih =>
    have hstep : (b.publish e).accepted = b.accepted + 1 := by
      rw [publish_accepted, observed_of_next h, if_pos rfl]
    have hrest := ih (b := b.publish e) (by rw [publish_next, h])
    rw [hstep] at hrest
    rw [List.length_cons, Nat.add_comm es.length, ← Nat.add_assoc]
    exact hrest

/-- **A receiver is overrun** by more events than there is room for. -/
theorem Ring.overrun (hb : b.Ring) {next : Nat} (h : b.next? receiver = some next) {es : List α}
    (hlong : b.size < es.length) : (b.publishAll es).Lags receiver := by
  refine ⟨next, by rw [publishAll_next, h], ?_⟩
  have hle := hb.next_le h
  rw [(hb.publishAll es).oldest_eq, publishAll_accepted h, publishAll_size]
  omega

/-! ## Receivers -/

theorem lt_length_of_next {next : Nat} (h : b.next? receiver = some next) :
    receiver < b.receivers.length := by
  rw [next?, Option.join_eq_some_iff] at h
  exact (List.getElem?_eq_some_iff.1 h).1

/-- A new receiver changes nothing for the others. -/
theorem subscribe_next {next : Nat} (h : b.next? receiver = some next) :
    b.subscribe.2.next? receiver = some next := by
  rw [next?] at h ⊢
  rw [subscribe, List.getElem?_append_left (lt_length_of_next h), h]

/-- It reads what is published next. -/
theorem subscribe_next_self (b : Bus α) : b.subscribe.2.next? b.subscribe.1 = some b.accepted := by
  simp [next?, subscribe]

theorem Ring.subscribe (hb : b.Ring) : b.subscribe.2.Ring where
  size_pos := hb.size_pos
  length_eq := hb.length_eq
  next_le {receiver next} h := by
    show next ≤ b.accepted
    by_cases hold : receiver < b.receivers.length
    · rw [next?, Bus.subscribe, List.getElem?_append_left hold] at h
      exact hb.next_le h
    · rw [next?, Option.join_eq_some_iff, Bus.subscribe, List.getElem?_append_right (by omega),
        List.getElem?_singleton] at h
      split at h
      · cases h
        exact Nat.le_refl _
      · cases h

/-- A receiver goes on to another event. -/
def moveTo (b : Bus α) (receiver next : Nat) : Bus α :=
  { b with receivers := b.receivers.set receiver (some next) }

theorem moveTo_next_self {next : Nat} (h : b.next? receiver = some next) (next' : Nat) :
    (b.moveTo receiver next').next? receiver = some next' := by
  simp [next?, moveTo, lt_length_of_next h]

theorem moveTo_next_of_ne {receiver' : Nat} (hne : receiver ≠ receiver') (b : Bus α)
    (next : Nat) : (b.moveTo receiver next).next? receiver' = b.next? receiver' := by
  simp [next?, moveTo, hne]

theorem Ring.moveTo (hb : b.Ring) {next : Nat} (hle : next ≤ b.accepted) :
    (b.moveTo receiver next).Ring where
  size_pos := hb.size_pos
  length_eq := hb.length_eq
  next_le {receiver' next'} h := by
    by_cases heq : receiver = receiver'
    · subst heq
      rw [next?, Bus.moveTo, List.getElem?_set_self'] at h
      cases hold : b.receivers[receiver]? with
      | none =>
        rw [hold] at h
        cases h
      | some old =>
        rw [hold] at h
        cases h
        exact hle
    · rw [moveTo_next_of_ne heq] at h
      exact hb.next_le h

/-- Reading changes at most what the receiver reads next. -/
theorem receive_moves (hb : b.Ring) {old : Nat} (h : b.next? receiver = some old) :
    ∃ next, next ≤ b.accepted ∧ (b.receive receiver).2 = b.moveTo receiver next := by
  rw [receive, show b.receivers[receiver]?.join = some old from h]
  simp only
  split
  · exact ⟨b.oldest, Nat.sub_le .., rfl⟩
  · next hge =>
    split
    · next e he =>
      refine ⟨old + 1, ?_, rfl⟩
      have hlt := (List.getElem?_eq_some_iff.1 he).1
      have hlength := hb.length_eq
      rw [oldest] at hlt hge
      omega
    · have hsame : b.receivers.set receiver (some old) = b.receivers := by
        obtain ⟨hlt, heq⟩ := List.getElem?_eq_some_iff.1 (Option.join_eq_some_iff.1 h)
        rw [← heq, List.set_getElem_self]
      refine ⟨old, hb.next_le h, ?_⟩
      rw [moveTo, hsame]

/-- A receiver that lags is told so, and goes on to the oldest retained event. -/
theorem receive_of_lags (h : b.Lags receiver) :
    ∃ missed, b.receive receiver = (.lagged missed, b.moveTo receiver b.oldest) := by
  obtain ⟨next, hnext, hlt⟩ := h
  refine ⟨b.oldest - next, ?_⟩
  rw [receive, show b.receivers[receiver]?.join = some next from hnext]
  simp only
  rw [if_pos hlt]
  rfl

/-- **A report takes the place of what its reader would read next.** The ring is full when a
receiver lags, so a receiver that goes on to the oldest retained event, with something published
before it reads that, lags again. -/
theorem Lags.report (hb : b.Ring) (h : b.Lags receiver) (e : α) :
    ((b.moveTo receiver b.oldest).publish e).Lags receiver := by
  obtain ⟨next, hnext, hlt⟩ := h
  have hmoved := moveTo_next_self hnext b.oldest
  have hring : (b.moveTo receiver b.oldest).Ring := hb.moveTo (Nat.sub_le ..)
  refine ⟨b.oldest, by rw [publish_next, hmoved], ?_⟩
  rw [(hring.publish e).oldest_eq, publish_accepted, observed_of_next hmoved, publish_size]
  rw [hb.oldest_eq] at hlt ⊢
  show b.accepted - b.size < b.accepted + 1 - b.size
  omega

end Bus

namespace SubscriberSet

variable {s s' : SubscriberSet} {i : Nat}

/-- A bus with listeners each of which has a receiver of its own. -/
structure Sound (s : SubscriberSet) : Prop where
  ring : s.bus.Ring
  live {i receiver : Nat} (h : s.receiver? i = some receiver) :
    ∃ next, s.bus.next? receiver = some next
  apart {i j receiver : Nat} (hi : s.receiver? i = some receiver)
    (hj : s.receiver? j = some receiver) : i = j

/-- A listener lags. -/
def Lags (s : SubscriberSet) (i : Nat) : Prop :=
  ∃ receiver, s.receiver? i = some receiver ∧ s.bus.Lags receiver

/-- What happened between two states is no more than that some events were published. -/
structure Publishes (s s' : SubscriberSet) : Prop where
  bus_eq : ∃ es, s'.bus = s.bus.publishAll es
  listeners_eq : s'.listeners = s.listeners

theorem Publishes.refl (s : SubscriberSet) : Publishes s s := ⟨⟨[], rfl⟩, rfl⟩

theorem Publishes.trans {s'' : SubscriberSet} (h : Publishes s s') (h' : Publishes s' s'') :
    Publishes s s'' := by
  obtain ⟨es, hes⟩ := h.bus_eq
  obtain ⟨es', hes'⟩ := h'.bus_eq
  refine ⟨⟨es ++ es', ?_⟩, h'.listeners_eq.trans h.listeners_eq⟩
  rw [hes', hes, Bus.publishAll, Bus.publishAll, Bus.publishAll, List.foldl_append]

theorem publish_publishes (s : SubscriberSet) (e : Event) : Publishes s (s.publish e) :=
  ⟨⟨[e], rfl⟩, rfl⟩

theorem emitTo_publishes (s : SubscriberSet) (e : Event) (i : Nat) :
    Publishes s (s.emitTo e i) := by
  rw [emitTo]
  split
  · exact .refl s
  · split
    · exact ⟨⟨[], rfl⟩, rfl⟩
    · split
      · exact .refl s
      · exact publish_publishes s _

theorem emit_publishes (s : SubscriberSet) (e : Event) : Publishes s (s.emit e) := by
  rw [emit]
  generalize List.range s.workers.length = is
  induction is generalizing s with
  | nil => exact .refl s
  | cons i is ih => exact (emitTo_publishes s e i).trans (ih _)

theorem takeUp_publishes (s : SubscriberSet) (i : Nat) : Publishes s (s.takeUp i) := by
  rw [takeUp]
  split
  · exact .refl s
  · split
    · exact ⟨⟨[], rfl⟩, rfl⟩
    · exact .refl s

theorem finish_publishes (s : SubscriberSet) (i : Nat) : Publishes s (s.finish i) := by
  unfold finish
  split
  · exact .refl s
  · split
    · exact .refl s
    · simp only
      split
      · exact ⟨⟨[], rfl⟩, rfl⟩
      · exact ⟨⟨[_], rfl⟩, rfl⟩
      · exact ⟨⟨[], rfl⟩, rfl⟩

theorem work_publishes (s : SubscriberSet) (i : Nat) : Publishes s (s.work i) :=
  (takeUp_publishes s i).trans (finish_publishes _ i)

theorem Publishes.receiver_eq (h : Publishes s s') (i : Nat) : s'.receiver? i = s.receiver? i := by
  rw [receiver?, h.listeners_eq, receiver?]

theorem Sound.publishes (hs : s.Sound) (h : Publishes s s') : s'.Sound := by
  obtain ⟨es, hes⟩ := h.bus_eq
  refine ⟨?_, fun {i receiver} hi => ?_, fun {i j receiver} hi hj => ?_⟩
  · rw [hes]
    exact hs.ring.publishAll es
  · rw [h.receiver_eq] at hi
    rw [hes, Bus.publishAll_next]
    exact hs.live hi
  · rw [h.receiver_eq] at hi hj
    exact hs.apart hi hj

theorem Lags.publishes (hs : s.Sound) (hi : s.Lags i) (h : Publishes s s') : s'.Lags i := by
  obtain ⟨receiver, hreceiver, hlags⟩ := hi
  obtain ⟨es, hes⟩ := h.bus_eq
  refine ⟨receiver, by rw [h.receiver_eq, hreceiver], ?_⟩
  rw [hes]
  exact hlags.publishAll hs.ring es

/-! ## Tasks -/

/-- What publishers, workers and listeners do, in any order. -/
inductive Task where
  | publish (e : Event)
  | emit (e : Event)
  | work (i : Nat)
  | listen
  | forward (i : Nat)

/-- The set after a task. -/
def Task.perform : Task → SubscriberSet → SubscriberSet
  | publish e, s => s.publish e
  | emit e, s => s.emit e
  | work i, s => s.work i
  | listen, s => s.listen
  | forward i, s => (s.forward i).getD s

/-- The set after some tasks. -/
def performAll (tasks : List Task) (s : SubscriberSet) : SubscriberSet :=
  tasks.foldl (fun s task => task.perform s) s

/-- A listener reports that it missed some events. -/
def lagReport (missed : Nat) : Event :=
  { kind := .subscriberOverflow
    reason := some ("listener lagged by " ++ toString missed ++ " events") }

/-- **A listener that lags forwards nothing.** All that it does is to publish a report. -/
theorem forward_of_lags (hi : s.Lags i) :
    ∃ receiver missed, s.receiver? i = some receiver ∧ s.bus.Lags receiver ∧
      s.forward i = some
        ({ s with bus := s.bus.moveTo receiver s.bus.oldest }.publish (lagReport missed)) := by
  obtain ⟨receiver, hreceiver, hlags⟩ := hi
  obtain ⟨missed, hmissed⟩ := Bus.receive_of_lags hlags
  refine ⟨receiver, missed, hreceiver, hlags, ?_⟩
  simp only [forward, hreceiver, hmissed]
  rfl

/-- A step of a listener moves its receiver, and some events are published. -/
theorem forward_moves (hs : s.Sound) (h : s.forward i = some s') :
    ∃ receiver next, s.receiver? i = some receiver ∧ next ≤ s.bus.accepted ∧
      Publishes { s with bus := s.bus.moveTo receiver next } s' := by
  rw [forward] at h
  split at h
  · cases h
  · next receiver hreceiver =>
    obtain ⟨old, hold⟩ := hs.live hreceiver
    obtain ⟨next, hle, hbus⟩ := Bus.receive_moves hs.ring hold
    refine ⟨receiver, next, hreceiver, hle, ?_⟩
    rw [← hbus]
    split at h
    · next e bus hreceive =>
      cases h
      rw [hreceive]
      exact emit_publishes _ e
    · next missed bus hreceive =>
      cases h
      rw [hreceive]
      exact publish_publishes { s with bus } _
    · cases h

theorem Sound.moveTo (hs : s.Sound) {receiver next : Nat} (hle : next ≤ s.bus.accepted) :
    ({ s with bus := s.bus.moveTo receiver next } : SubscriberSet).Sound := by
  refine ⟨hs.ring.moveTo hle, fun {j receiver'} hj => ?_, hs.apart⟩
  obtain ⟨old, hold⟩ := hs.live hj
  by_cases heq : receiver = receiver'
  · subst heq
    exact ⟨next, Bus.moveTo_next_self hold next⟩
  · exact ⟨old, by rw [Bus.moveTo_next_of_ne heq, hold]⟩

/-- A new listener has a new receiver, and the others keep theirs. -/
theorem listen_receiver (s : SubscriberSet) (j : Nat) :
    s.listen.receiver? j =
      if j = s.listeners.length then some s.bus.subscribe.1 else s.receiver? j := by
  rw [receiver?, receiver?]
  show (s.listeners ++ [{ receiver := some s.bus.subscribe.1 }])[j]?.bind _ = _
  by_cases hnew : j = s.listeners.length
  · rw [if_pos hnew, hnew, List.getElem?_concat_length]
    rfl
  · rw [if_neg hnew]
    by_cases hold : j < s.listeners.length
    · rw [List.getElem?_append_left hold]
    · rw [List.getElem?_eq_none (by simp; omega), List.getElem?_eq_none (by omega)]

theorem Sound.listen (hs : s.Sound) : s.listen.Sound := by
  have hfresh {j receiver : Nat} (hj : s.receiver? j = some receiver) :
      s.bus.subscribe.1 ≠ receiver := by
    obtain ⟨next, hnext⟩ := hs.live hj
    exact Nat.ne_of_gt (Bus.lt_length_of_next hnext)
  refine ⟨hs.ring.subscribe, fun {j receiver} hj => ?_, fun {j k receiver} hj hk => ?_⟩
  · rw [listen_receiver] at hj
    split at hj
    · cases hj
      exact ⟨_, Bus.subscribe_next_self s.bus⟩
    · obtain ⟨next, hnext⟩ := hs.live hj
      exact ⟨next, Bus.subscribe_next hnext⟩
  · rw [listen_receiver] at hj hk
    split at hj <;> split at hk
    · next hj_new hk_new => rw [hj_new, hk_new]
    · cases hj
      exact absurd rfl (hfresh hk)
    · cases hk
      exact absurd rfl (hfresh hj)
    · exact hs.apart hj hk

theorem Lags.listen (hi : s.Lags i) : s.listen.Lags i := by
  obtain ⟨receiver, hreceiver, next, hnext, hlt⟩ := hi
  have hne : i ≠ s.listeners.length := by
    rintro rfl
    rw [receiver?, List.getElem?_eq_none (Nat.le_refl _)] at hreceiver
    cases hreceiver
  refine ⟨receiver, ?_, next, Bus.subscribe_next hnext, hlt⟩
  rw [listen_receiver, if_neg hne, hreceiver]

/-- What the bus and the listeners are to each other stays so. -/
theorem Sound.perform (hs : s.Sound) (task : Task) : (task.perform s).Sound := by
  cases task with
  | publish e => exact hs.publishes (publish_publishes s e)
  | emit e => exact hs.publishes (emit_publishes s e)
  | work i => exact hs.publishes (work_publishes s i)
  | listen => exact hs.listen
  | forward i =>
    rw [Task.perform]
    cases h : s.forward i with
    | none => exact hs
    | some s' =>
      obtain ⟨receiver, next, -, hle, hpublishes⟩ := forward_moves hs h
      exact (hs.moveTo hle).publishes hpublishes

/-- **A listener that lags goes on to lag**, whatever is done next, by itself or by others. -/
theorem Lags.perform (hs : s.Sound) (hi : s.Lags i) (task : Task) : (task.perform s).Lags i := by
  cases task with
  | publish e => exact hi.publishes hs (publish_publishes s e)
  | emit e => exact hi.publishes hs (emit_publishes s e)
  | work i => exact hi.publishes hs (work_publishes s i)
  | listen => exact hi.listen
  | forward j =>
    by_cases hj : j = i
    · subst hj
      obtain ⟨receiver, missed, hreceiver, hlags, hforward⟩ := forward_of_lags hi
      rw [Task.perform, hforward]
      exact ⟨receiver, hreceiver, hlags.report hs.ring _⟩
    · rw [Task.perform]
      cases h : s.forward j with
      | none => exact hi
      | some s' =>
        obtain ⟨receiver, next, hreceiver, hle, hpublishes⟩ := forward_moves hs h
        refine Lags.publishes (hs.moveTo hle) ?_ hpublishes
        obtain ⟨receiver', hreceiver', old, hold, hlt⟩ := hi
        refine ⟨receiver', hreceiver', old, ?_, hlt⟩
        rw [Bus.moveTo_next_of_ne, hold]
        rintro rfl
        exact hj (hs.apart hreceiver hreceiver')

/-- What a step of a listener that lags comes to. -/
theorem Lags.reports (hs : s.Sound) (hi : s.Lags i) :
    ∃ s' missed, s.forward i = some s' ∧ s'.workers = s.workers ∧
      s'.bus.retained.getLast? = some (lagReport missed) := by
  obtain ⟨receiver, missed, hreceiver, ⟨next, hnext, -⟩, hforward⟩ := forward_of_lags hi
  refine ⟨_, missed, hforward, rfl, ?_⟩
  have hring : (s.bus.moveTo receiver s.bus.oldest).Ring := hs.ring.moveTo (Nat.sub_le ..)
  exact hring.publish_getLast (Bus.observed_of_next (Bus.moveTo_next_self hnext _)) _

theorem Sound.performAll (hs : s.Sound) (tasks : List Task) : (performAll tasks s).Sound := by
  induction tasks generalizing s with
  | nil => exact hs
  | cons task tasks ih => exact ih (hs.perform task)

theorem Lags.performAll (hs : s.Sound) (hi : s.Lags i) (tasks : List Task) :
    (performAll tasks s).Lags i := by
  induction tasks generalizing s with
  | nil => exact hi
  | cons task tasks ih => exact ih (hs.perform task) (hi.perform hs task)

/-- The steps of a listener that lags: each of them publishes one more event, and none has anything
for the workers. -/
theorem Lags.forwards (hs : s.Sound) (hi : s.Lags i) (n : Nat) :
    let s' := SubscriberSet.performAll (List.replicate n (.forward i)) s
    s'.workers = s.workers ∧ s'.bus.accepted = s.bus.accepted + n := by
  induction n generalizing s with
  | zero => exact ⟨rfl, rfl⟩
  | succ n ih =>
    obtain ⟨receiver, missed, hreceiver, ⟨next, hnext, -⟩, hforward⟩ := forward_of_lags hi
    have hstep : (Task.forward i).perform s =
        { s with bus := s.bus.moveTo receiver s.bus.oldest }.publish (lagReport missed) := by
      rw [Task.perform, hforward, Option.getD_some]
    have haccepted : ((Task.forward i).perform s).bus.accepted = s.bus.accepted + 1 := by
      rw [hstep]
      show (Bus.publish _ _).accepted = _
      rw [Bus.publish_accepted, Bus.observed_of_next (Bus.moveTo_next_self hnext _), if_pos rfl]
      rfl
    obtain ⟨hworkers, hrest⟩ := ih (hs.perform _) (hi.perform hs (.forward i))
    refine ⟨hworkers.trans (by rw [hstep]; rfl), hrest.trans ?_⟩
    rw [haccepted, Nat.add_assoc, Nat.add_comm 1]

/-- A new set is sound. -/
theorem ofSubscribers_sound {bus : Bus Event} (hbus : bus.Ring) (subscribers : List Subscriber) :
    (ofSubscribers bus subscribers).Sound where
  ring := hbus
  live h := nomatch h
  apart h := nomatch h

/-- **A listener that lags never catches up.** Whatever the publishers, the workers and the
listeners do after that, in any order: the listener lags, and the next step that it takes is to
publish a report, while no worker is offered anything. Left to itself it goes on for ever, and each
step adds a report to the bus. -/
theorem lags_forever (capacity : Nat) (subscribers : List Subscriber) (before : List Task) (i : Nat)
    (hlags : (performAll before (ofSubscribers (.ofCapacity capacity) subscribers)).Lags i) :
    let s := performAll before (ofSubscribers (.ofCapacity capacity) subscribers)
    (∀ after, let s' := performAll after s
      s'.Lags i ∧ ∃ s'' missed, s'.forward i = some s'' ∧ s''.workers = s'.workers ∧
        s''.bus.retained.getLast? = some (lagReport missed)) ∧
    ∀ n, let s' := performAll (List.replicate n (.forward i)) s
      s'.workers = s.workers ∧ s'.bus.accepted = s.bus.accepted + n := by
  intro s
  have hs : s.Sound :=
    (ofSubscribers_sound (Bus.ofCapacity_ring capacity) subscribers).performAll before
  refine ⟨fun after => ?_, fun n => hlags.forwards hs n⟩
  exact ⟨hlags.performAll hs after, (hlags.performAll hs after).reports (hs.performAll after)⟩

/-- **A listener is overrun** when more events are published at a stretch than the bus has room
for. -/
theorem Sound.overrun (hs : s.Sound) {receiver : Nat} (hi : s.receiver? i = some receiver)
    {es : List Event} (hlong : s.bus.size < es.length) :
    (SubscriberSet.performAll (es.map .publish) s).Lags i := by
  have hpublishes (es : List Event) (s : SubscriberSet) :
      (SubscriberSet.performAll (es.map .publish) s).bus = s.bus.publishAll es ∧
        (SubscriberSet.performAll (es.map .publish) s).listeners = s.listeners := by
    induction es generalizing s with
    | nil => exact ⟨rfl, rfl⟩
    | cons e es ih => exact ih (s.publish e)
  obtain ⟨hbus, hlisteners⟩ := hpublishes es s
  obtain ⟨next, hnext⟩ := hs.live hi
  refine ⟨receiver, ?_, ?_⟩
  · rw [receiver?, hlisteners]
    exact hi
  · rw [hbus]
    exact hs.ring.overrun hnext hlong

/-- A bus with room for two events, a subscriber and a listener, when three events were published
before the listener had its turn. -/
def crowded : SubscriberSet :=
  performAll (.listen :: (List.replicate 3 { kind := .serverAdded }).map .publish)
    (ofSubscribers (.ofCapacity 2) [{ name := "c", capacity := 4 }])

theorem ofCapacity_two : (Bus.ofCapacity 2 : Bus Event) = { size := 2 } := by
  have hpower : Nat.nextPowerOfTwo 2 = 2 := by decide +kernel
  rw [Bus.ofCapacity, hpower]

theorem crowded_lags : crowded.Lags 0 := by
  have hsize : (Bus.ofCapacity 2 : Bus Event).size < 3 := by
    rw [ofCapacity_two]
    decide
  exact ((ofSubscribers_sound (Bus.ofCapacity_ring 2) _).perform .listen).overrun rfl hsize

/-- It has missed one event, and misses the other two whatever is done then. -/
theorem lags_forever_crowded : crowded.Lags 0 ∧ ∀ after, (performAll after crowded).Lags 0 :=
  ⟨crowded_lags, fun after => ((lags_forever 2 _ _ 0 crowded_lags).1 after).1⟩

/-- Two events are retained when the listener notices that it missed one. It does not come to an end
in any number of steps, and neither of the two is handed to the subscriber. -/
theorem retained_never_forwarded :
    crowded.bus.retained = List.replicate 2 { kind := .serverAdded } ∧
      ∀ n, let s := performAll (List.replicate n (.forward 0)) crowded
        s.forward 0 ≠ none ∧ s.workers.map Worker.queue = [[]] ∧
          s.workers.map Worker.handled = [[]] := by
  have hs : crowded.Sound :=
    (ofSubscribers_sound (Bus.ofCapacity_ring 2) _).performAll _
  have hretained : crowded.bus.retained = List.replicate 2 { kind := .serverAdded } := by
    rw [crowded, ofCapacity_two]
    decide
  refine ⟨hretained, fun n => ?_⟩
  obtain ⟨hworkers, -⟩ := crowded_lags.forwards hs n
  obtain ⟨s', missed, hforward, -⟩ :=
    (crowded_lags.performAll hs (List.replicate n (.forward 0))).reports (hs.performAll _)
  refine ⟨?_, ?_, ?_⟩
  · rw [hforward]
    nofun
  · rw [hworkers]
    rfl
  · rw [hworkers]
    rfl

end SubscriberSet

end Overseer
