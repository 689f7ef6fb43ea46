import Mathlib.Algebra.BigOperators.Group.Finset.Basic
import Mathlib.Algebra.Order.BigOperators.Group.Finset
import Overseer.Proofs.Subscribers.Lag
import Overseer.Proofs.Subscribers.Shutdown

/-!
# Round the bus

What is published on the bus comes back to the workers by the listeners, and what the workers report
comes back to the bus. A `Circuit` is a set with its listeners at work: each has in hand what it is
still to offer of the event that it has read. A `Move` is the least that can happen, so a list of
moves is one way in which the listeners and the workers come between each other.

What is left to do is charged for (`Circuit.charge`): each event that is not read by a listener,
that a listener has in hand, or that is at a worker, by what may come of it. Every move but a
publication is paid for out of that, and so is a report, to the extent that the event it is about
was charged for it (`Goes.pays`).
-/

namespace Overseer

namespace Bus

variable {α : Type} {b : Bus α} {receiver next : Nat}

/-- The retained events that a receiver has not read. -/
def unread (b : Bus α) (receiver : Nat) : List α :=
  (b.next? receiver).elim [] fun next => b.retained.drop (next - b.oldest)

theorem unread_of_next (h : b.next? receiver = some next) :
    b.unread receiver = b.retained.drop (next - b.oldest) := by
  rw [unread, h, Option.elim_some]

/-- What is published is unread, and the oldest unread events may have made room for it. -/
theorem Ring.unread_publish (hb : b.Ring) (h : b.next? receiver = some next) (e : α) :
    (b.publish e).unread receiver =
      (b.unread receiver).drop ((b.publish e).oldest - max next b.oldest) ++ [e] := by
  have hlength := hb.length_eq
  have hle := hb.next_le h
  have hpos := hb.size_pos
  have hretained : (b.publish e).retained =
      (b.retained ++ [e]).drop (b.retained.length + 1 - b.size) := by
    rw [Bus.publish, if_pos (observed_of_next h)]
  have holdest : (b.publish e).oldest = b.accepted + 1 - b.size := by
    rw [(hb.publish e).oldest_eq, publish_accepted, if_pos (observed_of_next h), publish_size]
  rw [unread_of_next h, unread_of_next (by rw [publish_next, h]), hretained, List.drop_drop,
    List.drop_drop, List.drop_append_of_le_length (by omega), hb.oldest_eq]
  congr 2
  omega

/-- **Nothing that is unread gets lost** for a receiver that does not lag. -/
theorem Ring.unread_publishAll (hb : b.Ring) (h : b.next? receiver = some next) {es : List α}
    (hkeeps : ¬(b.publishAll es).Lags receiver) :
    (b.publishAll es).unread receiver = b.unread receiver ++ es := by
  induction es generalizing b with
  | nil => exact (List.append_nil _).symm
  | cons e es ih =>
    have hnext : (b.publish e).next? receiver = some next := by rw [publish_next, h]
    have hfirst : ¬(b.publish e).Lags receiver :=
      fun hlags => hkeeps (hlags.publishAll (hb.publish e) es)
    have hnone : (b.publish e).oldest - max next b.oldest = 0 := by
      have hle : (b.publish e).oldest ≤ next :=
        Nat.le_of_not_lt fun hlt => hfirst ⟨next, hnext, hlt⟩
      omega
    have hrest := ih (hb.publish e) hnext hkeeps
    rw [hb.unread_publish h, hnone, List.drop_zero, List.append_assoc] at hrest
    exact hrest

/-- What a receiver reads is the oldest event that it has not read. -/
theorem unread_of_receive {e : α} {b' : Bus α} (h : b.receive receiver = (.event e, b')) :
    ∃ next, b.next? receiver = some next ∧ b' = b.moveTo receiver (next + 1) ∧
      b.unread receiver = e :: b'.unread receiver := by
  rw [receive] at h
  split at h
  · cases h
  · next next hnext =>
    split at h
    · cases h
    · next hge =>
      split at h
      · next e' he =>
        cases h
        obtain ⟨hlt, heq⟩ := List.getElem?_eq_some_iff.1 he
        refine ⟨next, hnext, rfl, ?_⟩
        have hmoved := moveTo_next_self (b := b) hnext (next + 1)
        rw [unread_of_next hnext, List.drop_eq_getElem_cons hlt, heq]
        refine congrArg (e :: ·) (.trans ?_ (unread_of_next hmoved).symm)
        show _ = List.drop (next + 1 - b.oldest) b.retained
        rw [Nat.succ_sub (Nat.le_of_not_lt hge)]
      · split at h <;> cases h

theorem lags_of_receive {missed : Nat} {b' : Bus α}
    (h : b.receive receiver = (.lagged missed, b')) : b.Lags receiver := by
  rw [receive] at h
  split at h
  · cases h
  · next next hnext =>
    split at h
    · next hlt => exact ⟨next, hnext, hlt⟩
    · split at h
      · cases h
      · split at h <;> cases h

/-- A receiver that does not lag reads what it has not read. -/
theorem receive_of_unread {e : α} {rest : List α} (hkeeps : ¬b.Lags receiver)
    (h : b.unread receiver = e :: rest) : ∃ b', b.receive receiver = (.event e, b') := by
  rw [unread] at h
  cases hnext : b.next? receiver with
  | none =>
    rw [hnext] at h
    cases h
  | some next =>
    rw [hnext, Option.elim_some] at h
    have hget : b.retained[next - b.oldest]? = some e := by
      rw [← List.head?_drop, h, List.head?_cons]
    rw [receive, show b.receivers[receiver]?.join = some next from hnext]
    simp only [if_neg fun hlt => hkeeps ⟨next, hnext, hlt⟩, hget]
    exact ⟨_, rfl⟩

end Bus

/-- What may be published over an event that a subscriber is told of. -/
inductive Subscriber.Answers (s : Subscriber) (e : Event) : Event → Prop
  /-- It was refused. -/
  | refused (refusal : Refusal) (h : e.isOverflow = false) :
      Answers s e (.overflow s.name refusal.reason)
  /-- The subscriber panicked over it, after whatever it was told of before. -/
  | panicked {past : List Event} {panic : Panic} (h : s.reaction past e = .panics panic) :
      Answers s e (.panicked s.name panic.message)

namespace Worker

variable {w : Worker} {e e' : Event}

theorem answers_of_refusalReport (h : w.refusalReport e = some e') :
    w.subscriber.Answers e e' := by
  rw [refusalReport] at h
  split at h
  · cases h
  · next hnot =>
    cases h
    rw [Bool.or_eq_true, not_or] at hnot
    exact .refused _ (Bool.eq_false_iff.2 hnot.2)

theorem answers_of_panicReport {subscriber : Subscriber} {past : List Event}
    (h : panicReport subscriber past e = some e') : subscriber.Answers e e' := by
  rw [panicReport] at h
  split at h
  · next hreaction =>
    cases h
    exact .panicked hreaction
  · cases h
  · cases h

end Worker

namespace SubscriberSet

variable {s s' : SubscriberSet} {l : Nat}

/-- The retained events that a listener has not read. -/
def unread (s : SubscriberSet) (l : Nat) : List Event := (s.receiver? l).elim [] s.bus.unread

theorem unread_of_receiver {receiver : Nat} (h : s.receiver? l = some receiver) :
    s.unread l = s.bus.unread receiver := by
  rw [unread, h, Option.elim_some]

theorem unread_congr (hbus : s'.bus = s.bus) (hlisteners : s'.listeners = s.listeners) :
    s'.unread l = s.unread l := by
  rw [unread, receiver?, hbus, hlisteners]
  rfl

theorem Sound.unread_publish (hs : s.Sound) {receiver : Nat} (h : s.receiver? l = some receiver)
    {e : Event} (hbus : s'.bus = s.bus.publish e) (hlisteners : s'.listeners = s.listeners) :
    ∃ older, s'.unread l = (s.unread l).drop older ++ [e] := by
  obtain ⟨next, hnext⟩ := hs.live h
  have h' : s'.receiver? l = some receiver := by rw [receiver?, hlisteners, ← receiver?, h]
  rw [unread_of_receiver h, unread_of_receiver h', hbus]
  exact ⟨_, hs.ring.unread_publish hnext e⟩

/-- What a listener reads it had not read. -/
theorem unread_read {receiver : Nat} {e : Event} {bus : Bus Event}
    (hreceiver : s.receiver? l = some receiver)
    (hreceive : s.bus.receive receiver = (.event e, bus)) :
    s.unread l = e :: ({ s with bus } : SubscriberSet).unread l := by
  obtain ⟨next, -, -, hunread⟩ := Bus.unread_of_receive hreceive
  rw [unread_of_receiver hreceiver, hunread]
  exact congrArg (e :: ·) (unread_of_receiver (s := { s with bus }) hreceiver).symm

/-- What others read makes no difference to what a listener has not read. -/
theorem Sound.unread_moveTo (hs : s.Sound) {k receiver : Nat}
    (hreceiver : s.receiver? l = some receiver) (hk : k ≠ l) (next : Nat) :
    ({ s with bus := s.bus.moveTo receiver next } : SubscriberSet).unread k = s.unread k := by
  rw [unread, unread]
  show (s.receiver? k).elim [] _ = _
  cases hother : s.receiver? k with
  | none => rfl
  | some other =>
    have hne : receiver ≠ other := by
      rintro rfl
      exact hk (hs.apart hother hreceiver)
    rw [Option.elim_some, Option.elim_some, Bus.unread, Bus.unread, Bus.moveTo_next_of_ne hne]
    rfl

theorem Sound.unread_read_of_ne (hs : s.Sound) {receiver k : Nat} {e : Event} {bus : Bus Event}
    (hreceiver : s.receiver? l = some receiver)
    (hreceive : s.bus.receive receiver = (.event e, bus)) (hk : k ≠ l) :
    ({ s with bus } : SubscriberSet).unread k = s.unread k := by
  obtain ⟨next, -, rfl, -⟩ := Bus.unread_of_receive hreceive
  exact hs.unread_moveTo hreceiver hk _

/-- Something is said at a worker, and published, or nothing is. -/
theorem Acts.published {x : Nat × Worker.Step} (h : Acts s x s') :
    ((∀ w, s.workers[x.1]? = some w → w.report x.2 = none) ∧ s'.bus = s.bus) ∨
      ∃ w e, s.workers[x.1]? = some w ∧ w.report x.2 = some e ∧ s'.bus = s.bus.publish e := by
  have hbus := h.bus_eq
  rw [notice] at hbus
  cases hw : s.workers[x.1]? with
  | none =>
    rw [hw] at hbus
    exact .inl ⟨fun _ h => absurd h.symm (Option.some_ne_none _), hbus⟩
  | some w =>
    rw [hw, Option.bind_some] at hbus
    cases hreport : w.report x.2 with
    | none =>
      rw [hreport] at hbus
      refine .inl ⟨fun w' hw' => ?_, hbus⟩
      cases hw'
      exact hreport
    | some e =>
      rw [hreport] at hbus
      exact .inr ⟨w, e, rfl, hreport, hbus⟩

end SubscriberSet

/-- A set with its listeners at work. -/
structure Circuit where
  set : SubscriberSet
  /-- For each listener, to whom it is still to offer the event that it has read. -/
  hands : List (List (Nat × Event))

namespace Circuit

/-- The least that can happen. -/
inductive Move where
  /-- Somebody publishes an event. -/
  | publish (e : Event)
  /-- A listener reads the next event. -/
  | read (l : Nat)
  /-- A listener offers the event that it has read to one more worker. -/
  | offer (l : Nat)
  | takeUp (i : Nat)
  | finish (i : Nat)

/-- What somebody publishes. -/
def Move.published? : Move → Option Event
  | publish e => some e
  | read _ | offer _ | takeUp _ | finish _ => none

/-- A set of subscribers with so many listeners, when nothing has happened. -/
def start (capacity : Nat) (subscribers : List Subscriber) (listeners : Nat) : Circuit where
  set := SubscriberSet.performAll (.replicate listeners .listen)
    (.ofSubscribers (.ofCapacity capacity) subscribers)
  hands := .replicate listeners []

/-- The circuit after a move, if that can be made. A listener reads on when it has nothing in hand,
and a worker takes up an event when it has none. -/
def go? (t : Circuit) : Move → Option Circuit
  | .publish e => some { t with set := t.set.publish e }
  | .read l =>
    match t.hands[l]?, t.set.receiver? l with
    | some [], some receiver =>
      match t.set.bus.receive receiver with
      | (.event e, bus) => some
          { set := { t.set with bus }
            hands := t.hands.set l ((List.range t.set.workers.length).map fun i => (i, e)) }
      | (.lagged missed, bus) => some
          { t with set := { t.set with bus }.publish (SubscriberSet.lagReport missed) }
      | (_, _) => none
    | _, _ => none
  | .offer l =>
    match t.hands[l]? with
    | some ((i, e) :: rest) => some { set := t.set.emitTo e i, hands := t.hands.set l rest }
    | _ => none
  | .takeUp i =>
    match t.set.workers[i]? with
    | some w =>
      if w.current = none ∧ w.queue ≠ [] then some { t with set := t.set.takeUp i } else none
    | none => none
  | .finish i =>
    match t.set.workers[i]? with
    | some w => if w.current = none then none else some { t with set := t.set.finish i }
    | none => none

/-- The circuit after some moves, if they can be made. -/
def goAll? (t : Circuit) (moves : List Move) : Option Circuit := moves.foldlM go? t

/-- What a move comes to. -/
inductive Goes (t : Circuit) : Move → Circuit → Prop
  | publishes (e : Event) : Goes t (.publish e) { t with set := t.set.publish e }
  | reads {l receiver : Nat} {e : Event} {bus : Bus Event} (hhand : t.hands[l]? = some [])
      (hreceiver : t.set.receiver? l = some receiver)
      (hreceive : t.set.bus.receive receiver = (.event e, bus)) :
      Goes t (.read l)
        { set := { t.set with bus }
          hands := t.hands.set l ((List.range t.set.workers.length).map fun i => (i, e)) }
  | lags {l receiver missed : Nat} {bus : Bus Event} (hreceiver : t.set.receiver? l = some receiver)
      (hreceive : t.set.bus.receive receiver = (.lagged missed, bus)) :
      Goes t (.read l)
        { t with set := { t.set with bus }.publish (SubscriberSet.lagReport missed) }
  | offers {l i : Nat} {e : Event} {rest : List (Nat × Event)}
      (hhand : t.hands[l]? = some ((i, e) :: rest)) :
      Goes t (.offer l) { set := t.set.act (i, .offer e), hands := t.hands.set l rest }
  | takesUp {i : Nat} {w : Worker} {e : Event} {queue : List Event}
      (hw : t.set.workers[i]? = some w) (hcurrent : w.current = none)
      (hqueue : w.queue = e :: queue) :
      Goes t (.takeUp i) { t with set := t.set.act (i, .takeUp) }
  | finishes {i : Nat} {w : Worker} {e : Event} (hw : t.set.workers[i]? = some w)
      (hcurrent : w.current = some e) : Goes t (.finish i) { t with set := t.set.act (i, .finish) }

theorem goes_of_go? {t t' : Circuit} {m : Move} (h : t.go? m = some t') : Goes t m t' := by
  cases m with
  | publish e =>
    cases h
    exact .publishes e
  | read l =>
    rw [go?] at h
    split at h
    · next receiver hhand hreceiver =>
      split at h
      · next e bus hreceive =>
        cases h
        exact .reads hhand hreceiver hreceive
      · next missed bus hreceive =>
        cases h
        exact .lags hreceiver hreceive
      · cases h
    · cases h
  | offer l =>
    rw [go?] at h
    split at h
    · next i e rest hhand =>
      cases h
      exact .offers hhand
    · cases h
  | takeUp i =>
    rw [go?] at h
    split at h
    · next w hw =>
      split at h
      · next hfree =>
        cases h
        obtain ⟨e, queue, hqueue⟩ := List.exists_cons_of_ne_nil hfree.2
        exact .takesUp hw hfree.1 hqueue
      · cases h
    · cases h
  | finish i =>
    rw [go?] at h
    split at h
    · next w hw =>
      split at h
      · cases h
      · next hcurrent =>
        cases h
        obtain ⟨e, he⟩ := Option.ne_none_iff_exists'.1 hcurrent
        exact .finishes hw he
    · cases h

/-- A listener that offers what it has in hand to some workers, with nothing in between. -/
theorem goAll?_offers (s : SubscriberSet) (e : Event) (is : List Nat)
    {hands : List (List (Nat × Event))} {l : Nat} (hl : l < hands.length) :
    goAll? { set := s, hands := hands.set l (is.map fun i => (i, e)) }
        (.replicate is.length (.offer l)) =
      some { set := is.foldl (fun s i => s.emitTo e i) s, hands := hands.set l [] } := by
  induction is generalizing s with
  | nil => rfl
  | cons i is ih =>
    have hgo : go? { set := s, hands := hands.set l ((i :: is).map fun i => (i, e)) } (.offer l) =
        some { set := s.emitTo e i, hands := hands.set l (is.map fun i => (i, e)) } := by
      simp [go?, hl]
    rw [List.length_cons, List.replicate_succ, goAll?, List.foldlM_cons, hgo]
    exact ih (s.emitTo e i)

/-- **A listener forwards an event** when it reads it and offers it to all workers with nothing in
between. -/
theorem goAll?_forward {t : Circuit} {l receiver : Nat} {e : Event} {bus : Bus Event}
    (hhand : t.hands[l]? = some []) (hreceiver : t.set.receiver? l = some receiver)
    (hreceive : t.set.bus.receive receiver = (.event e, bus)) :
    t.goAll? (.read l :: .replicate t.set.workers.length (.offer l)) =
      (t.set.forward l).map fun set => { set, hands := t.hands } := by
  obtain ⟨hl, hempty⟩ := List.getElem?_eq_some_iff.1 hhand
  have hgo : t.go? (.read l) = some
      { set := { t.set with bus }
        hands := t.hands.set l ((List.range t.set.workers.length).map fun i => (i, e)) } := by
    simp only [go?, hhand, hreceiver, hreceive]
  have hforward : t.set.forward l = some ({ t.set with bus }.emit e) := by
    simp only [SubscriberSet.forward, hreceiver, hreceive]
  have hoffers := goAll?_offers { t.set with bus } e (List.range t.set.workers.length) hl
  rw [List.length_range, ← hempty, List.set_getElem_self] at hoffers
  rw [goAll?, List.foldlM_cons, hgo, hforward]
  exact hoffers

/-! ## What stays as it is -/

/-- The listeners are in order. -/
structure Sound (t : Circuit) : Prop where
  set : t.set.Sound
  length_eq : t.hands.length = t.set.listeners.length

/-- No listener lags. -/
def KeepsUp (t : Circuit) : Prop := ∀ l, ¬t.set.Lags l

variable {t t' : Circuit} {m : Move}

theorem advance_subscribers (ws : List Worker) (x : Nat × Worker.Step) :
    (SubscriberSet.advance ws x).map Worker.subscriber = ws.map Worker.subscriber := by
  refine List.ext_getElem? fun i => ?_
  rw [List.getElem?_map, List.getElem?_map, SubscriberSet.getElem?_advance, Option.map_map]
  congr 1
  funext w
  show (if x.1 = i then w.step x.2 else w).subscriber = _
  split
  · rw [Worker.step_subscriber]
  · rfl

theorem act_publishes (s : SubscriberSet) (x : Nat × Worker.Step) :
    SubscriberSet.Publishes s (s.act x) :=
  ⟨⟨_, (SubscriberSet.act_acts s x).bus_eq⟩, (SubscriberSet.act_acts s x).listeners_eq⟩

/-- What comes of listeners that are attached. -/
theorem performAll_listen (s : SubscriberSet) (n : Nat) :
    let s' := SubscriberSet.performAll (.replicate n .listen) s
    s'.workers = s.workers ∧ s'.bus.retained = s.bus.retained ∧ s'.bus.accepted = s.bus.accepted ∧
      s'.listeners.length = s.listeners.length + n ∧
        ((∀ x ∈ s.listeners, x.receiver ≠ none) → ∀ x ∈ s'.listeners, x.receiver ≠ none) := by
  induction n generalizing s with
  | zero => exact ⟨rfl, rfl, rfl, rfl, id⟩
  | succ n ih =>
    obtain ⟨hworkers, hretained, haccepted, hlength, hreceivers⟩ := ih s.listen
    refine ⟨hworkers, hretained, haccepted, hlength.trans ?_, fun hs => hreceivers ?_⟩
    · show (s.listeners ++ [_]).length + n = _
      rw [List.length_append, List.length_singleton, Nat.add_assoc, Nat.add_comm 1]
    · exact List.forall_mem_append.2 ⟨hs, List.forall_mem_singleton.2 nofun⟩

section
variable (capacity : Nat) (subscribers : List Subscriber) (listeners : Nat)

theorem start_workers :
    (start capacity subscribers listeners).set.workers = subscribers.map Worker.new :=
  (performAll_listen _ listeners).1

theorem start_accepted : (start capacity subscribers listeners).set.bus.accepted = 0 :=
  (performAll_listen _ listeners).2.2.1

theorem start_sound : (start capacity subscribers listeners).Sound := by
  refine ⟨(SubscriberSet.ofSubscribers_sound (Bus.ofCapacity_ring capacity) _).performAll _, ?_⟩
  obtain ⟨-, -, -, hlength, -⟩ :=
    performAll_listen (.ofSubscribers (.ofCapacity capacity) subscribers) listeners
  exact List.length_replicate.trans (hlength.trans (Nat.zero_add listeners)).symm

/-- Nothing is unread, since nothing was published. -/
theorem start_unread (l : Nat) : (start capacity subscribers listeners).set.unread l = [] := by
  obtain ⟨-, hretained, -⟩ :=
    performAll_listen (.ofSubscribers (.ofCapacity capacity) subscribers) listeners
  rw [SubscriberSet.unread]
  cases (start capacity subscribers listeners).set.receiver? l with
  | none => rfl
  | some receiver =>
    rw [Option.elim_some, Bus.unread, start, hretained]
    cases Bus.next? _ receiver with
    | none => rfl
    | some next => exact List.drop_nil

theorem start_receiver {l : Nat} (hl : l < listeners) :
    ∃ receiver, (start capacity subscribers listeners).set.receiver? l = some receiver := by
  obtain ⟨-, -, -, hlength, hreceivers⟩ :=
    performAll_listen (.ofSubscribers (.ofCapacity capacity) subscribers) listeners
  have hlt : l < (start capacity subscribers listeners).set.listeners.length :=
    Nat.lt_of_lt_of_le hl (Nat.le_of_eq (hlength.trans (Nat.zero_add _)).symm)
  rw [SubscriberSet.receiver?, List.getElem?_eq_getElem hlt]
  exact Option.ne_none_iff_exists'.1
    (hreceivers (List.forall_mem_nil _) _ (List.getElem_mem hlt))

end

/-- What a move leaves as it is. -/
structure Frame (t t' : Circuit) : Prop where
  sound : t'.Sound
  subscribers_eq : t'.set.workers.map Worker.subscriber = t.set.workers.map Worker.subscriber
  hands_eq : t'.hands.length = t.hands.length
  listeners_eq : t'.set.listeners = t.set.listeners

theorem Frame.size_eq (h : Frame t t') : t'.set.workers.length = t.set.workers.length := by
  simpa using congrArg List.length h.subscribers_eq

theorem Frame.trans {t'' : Circuit} (h : Frame t t') (h' : Frame t' t'') : Frame t t'' where
  sound := h'.sound
  subscribers_eq := h'.subscribers_eq.trans h.subscribers_eq
  hands_eq := h'.hands_eq.trans h.hands_eq
  listeners_eq := h'.listeners_eq.trans h.listeners_eq

theorem Goes.frame (h : Goes t m t') (hs : t.Sound) : Frame t t' := by
  have hact (x : Nat × Worker.Step) {hands : List (List (Nat × Event))}
      (hlength : hands.length = t.hands.length) : Frame t { set := t.set.act x, hands } := by
    have hacts := SubscriberSet.act_acts t.set x
    refine ⟨⟨hs.set.publishes (act_publishes t.set x), ?_⟩, ?_, hlength, hacts.listeners_eq⟩
    · show hands.length = (t.set.act x).listeners.length
      rw [hlength, hs.length_eq, hacts.listeners_eq]
    · show (t.set.act x).workers.map _ = _
      rw [hacts.workers_eq, advance_subscribers]
  have hread {receiver : Nat} {l : Nat} (hreceiver : t.set.receiver? l = some receiver) :
      ({ t.set with bus := (t.set.bus.receive receiver).2 } : SubscriberSet).Sound := by
    obtain ⟨old, hold⟩ := hs.set.live hreceiver
    obtain ⟨next, hle, hbus⟩ := Bus.receive_moves hs.set.ring hold
    rw [hbus]
    exact hs.set.moveTo hle
  cases h with
  | publishes e =>
    exact ⟨⟨hs.set.publishes (SubscriberSet.publish_publishes t.set e), hs.length_eq⟩,
      rfl, rfl, rfl⟩
  | reads hhand hreceiver hreceive =>
    have hsound := hread hreceiver
    rw [hreceive] at hsound
    exact ⟨⟨hsound, (List.length_set ..).trans hs.length_eq⟩, rfl, List.length_set .., rfl⟩
  | lags hreceiver hreceive =>
    have hsound := hread hreceiver
    rw [hreceive] at hsound
    exact ⟨⟨hsound.publishes (SubscriberSet.publish_publishes _ _), hs.length_eq⟩, rfl, rfl, rfl⟩
  | offers => exact hact _ (List.length_set ..)
  | takesUp | finishes => exact hact _ rfl

end Circuit

/-! ## What is left to do -/

section
variable (extra : Event → Nat)

/-- What a worker is charged for: an event of its queue is to be taken up and to be finished, and
the one in hand is to be finished. More may come of each. -/
def Worker.due (w : Worker) : Nat :=
  (w.queue.map fun e => extra e + 2).sum + w.current.elim 0 fun e => extra e + 1

/-- What is charged for an event that a listener has not read: it is to be read, and then to be
offered to each of the workers. -/
def toll (size : Nat) (e : Event) : Nat := size * (extra e + 3) + 1

namespace Worker

variable {w : Worker} {e : Event}

/-- A worker that says something over an event that it is offered has refused it. -/
theorem due_offer (w : Worker) (e : Event) :
    (w.step (.offer e)).due extra ≤
      w.due extra + if w.refusalReport e = none then extra e + 2 else 0 := by
  by_cases h : (w.alive && w.hasRoom) = true
  · have hreport : w.refusalReport e = none := by rw [refusalReport, h, Bool.true_or, if_pos rfl]
    rw [Bool.and_eq_true] at h
    rw [if_pos hreport, step, offer_of_room h.1 h.2, due, due, List.map_append, List.sum_append]
    simp only [List.map_cons, List.map_nil, List.sum_singleton]
    omega
  · rw [step, offer_of_no_room (Bool.eq_false_iff.2 h)]
    exact Nat.le_add_right _ _

theorem due_takeUp {queue : List Event} (hcurrent : w.current = none)
    (hqueue : w.queue = e :: queue) :
    (w.step .takeUp).due extra + 1 = w.due extra := by
  rw [step, takenUp, due, due, hcurrent, hqueue]
  simp only [Option.elim_some, Option.elim_none, List.map_cons, List.sum_cons]
  omega

theorem due_finish (hcurrent : w.current = some e) :
    (w.step .finish).due extra + (extra e + 1) ≤ w.due extra := by
  rw [step, finished, due, due, hcurrent]
  simp only
  split <;> simp

end Worker

/-- What the workers are charged for. -/
def workersDue (ws : List Worker) : Nat :=
  ∑ i ∈ Finset.range ws.length, (ws[i]?).elim 0 (Worker.due extra)

/-- What a listener is charged for: what it has not read, and what it has in hand. -/
def listenerDue (s : SubscriberSet) (hands : List (List (Nat × Event))) (l : Nat) : Nat :=
  ((s.unread l).map (toll extra s.workers.length)).sum +
    ((hands[l]?.getD []).map fun x => extra x.2 + 3).sum

/-- What the listeners are charged for. -/
def listenersDue (s : SubscriberSet) (hands : List (List (Nat × Event))) : Nat :=
  ∑ l ∈ Finset.range hands.length, listenerDue extra s hands l

/-- What all of them are charged for. -/
def Circuit.charge (t : Circuit) : Nat :=
  listenersDue extra t.set t.hands + workersDue extra t.set.workers

/-- A sum of which one term changes, and the others do not grow. -/
theorem sum_exchange {n k a b : Nat} {f g : Nat → Nat} (hk : k < n) (h : g k + a ≤ f k + b)
    (hothers : ∀ i, i ≠ k → g i ≤ f i) :
    ∑ i ∈ Finset.range n, g i + a ≤ ∑ i ∈ Finset.range n, f i + b := by
  have hmem := Finset.mem_range.2 hk
  have hrest : ∑ i ∈ (Finset.range n).erase k, g i ≤ ∑ i ∈ (Finset.range n).erase k, f i :=
    Finset.sum_le_sum fun i hi => hothers i (Finset.ne_of_mem_erase hi)
  rw [← Finset.add_sum_erase _ g hmem, ← Finset.add_sum_erase _ f hmem]
  omega

section
variable {s s' : SubscriberSet} {hands : List (List (Nat × Event))} {l i : Nat} {e : Event}

theorem workersDue_advance {ws : List Worker} {st : Worker.Step} {w : Worker} {a b : Nat}
    (hw : ws[i]? = some w) (hdue : (w.step st).due extra + a ≤ w.due extra + b) :
    workersDue extra (SubscriberSet.advance ws (i, st)) + a ≤ workersDue extra ws + b := by
  rw [workersDue, workersDue, SubscriberSet.advance, List.length_modify, ← SubscriberSet.advance]
  refine sum_exchange (List.getElem?_eq_some_iff.1 hw).1 ?_ fun j hj => ?_
  · rw [SubscriberSet.getElem?_advance, hw, Option.map_some, if_pos rfl]
    exact hdue
  · rw [SubscriberSet.getElem?_advance, Option.elim_map]
    simp only [if_neg (Ne.symm hj), Function.comp_def]
    exact Nat.le_refl _

/-- Listeners are not charged for what is done at the workers. -/
theorem listenersDue_congr (hbus : s'.bus = s.bus) (hlisteners : s'.listeners = s.listeners)
    (hsize : s'.workers.length = s.workers.length) :
    listenersDue extra s' hands = listenersDue extra s hands := by
  refine Finset.sum_congr rfl fun l _ => ?_
  rw [listenerDue, listenerDue, SubscriberSet.unread_congr hbus hlisteners, hsize]

/-- What is published is left to each listener. -/
theorem listenersDue_publish (hands : List (List (Nat × Event))) (hs : s.Sound)
    (hbus : s'.bus = s.bus.publish e) (hlisteners : s'.listeners = s.listeners)
    (hsize : s'.workers.length = s.workers.length) :
    listenersDue extra s' hands ≤
      listenersDue extra s hands + hands.length * toll extra s.workers.length e := by
  have hunread (l : Nat) : ((s'.unread l).map (toll extra s.workers.length)).sum ≤
      ((s.unread l).map (toll extra s.workers.length)).sum + toll extra s.workers.length e := by
    cases hreceiver : s.receiver? l with
    | none =>
      have hnone : s'.receiver? l = none := by
        rw [SubscriberSet.receiver?, hlisteners, ← SubscriberSet.receiver?, hreceiver]
      rw [SubscriberSet.unread, hnone]
      exact Nat.zero_le _
    | some receiver =>
      obtain ⟨older, holder⟩ := hs.unread_publish hreceiver hbus hlisteners
      rw [holder, List.map_append, List.sum_append]
      exact Nat.add_le_add_right
        (((List.drop_sublist older _).map _).sum_le_sum fun _ _ => Nat.zero_le _) _
  have hsum : listenersDue extra s' hands ≤
      ∑ l ∈ Finset.range hands.length, (listenerDue extra s hands l +
        toll extra s.workers.length e) := by
    refine Finset.sum_le_sum fun l _ => ?_
    have := hunread l
    rw [listenerDue, listenerDue, hsize]
    omega
  rwa [Finset.sum_add_distrib, Finset.sum_const, Finset.card_range, Nat.nsmul_eq_mul] at hsum

/-- What a listener offers it has not in hand any more. -/
theorem listenersDue_offer {rest : List (Nat × Event)} (hhand : hands[l]? = some ((i, e) :: rest)) :
    listenersDue extra s (hands.set l rest) + (extra e + 3) ≤ listenersDue extra s hands := by
  have hl := (List.getElem?_eq_some_iff.1 hhand).1
  rw [listenersDue, listenersDue, List.length_set]
  refine sum_exchange (b := 0) hl ?_ fun k hk => ?_
  · simp only [listenerDue, hhand, List.getElem?_set_self hl, Option.getD_some, List.map_cons,
      List.sum_cons]
    omega
  · rw [listenerDue, listenerDue, List.getElem?_set_ne (Ne.symm hk)]

/-- What a listener reads it has in hand, to be offered to all workers. -/
theorem listenersDue_read (hs : s.Sound) {receiver : Nat} {bus : Bus Event}
    (hhand : hands[l]? = some []) (hreceiver : s.receiver? l = some receiver)
    (hreceive : s.bus.receive receiver = (.event e, bus)) :
    listenersDue extra { s with bus }
        (hands.set l ((List.range s.workers.length).map fun i => (i, e))) + 1 ≤
      listenersDue extra s hands := by
  have hl := (List.getElem?_eq_some_iff.1 hhand).1
  rw [listenersDue, listenersDue, List.length_set]
  refine sum_exchange (b := 0) hl ?_ fun k hk => ?_
  · simp only [listenerDue, SubscriberSet.unread_read hreceiver hreceive, hhand,
      List.getElem?_set_self hl, Option.getD_some, List.map_cons, List.sum_cons, List.map_nil,
      List.sum_nil, List.map_map, Function.comp_def, List.map_const', List.sum_replicate,
      List.length_range, toll, Nat.nsmul_eq_mul]
    omega
  · rw [listenerDue, listenerDue, List.getElem?_set_ne (Ne.symm hk),
      hs.unread_read_of_ne hreceiver hreceive hk]

end

namespace Circuit

variable {t t' : Circuit} {m : Move}

/-- **Something happens at a worker**, and the worker is charged for that. If something is said,
listeners are charged for it. -/
theorem charge_act (hs : t.set.Sound) {i : Nat} {st : Worker.Step} {w : Worker} {a b : Nat}
    (hw : t.set.workers[i]? = some w) (hdue : (w.step st).due extra + a ≤ w.due extra + b) :
    (w.report st = none ∧ (t.set.act (i, st)).bus = t.set.bus ∧
        ({ t with set := t.set.act (i, st) } : Circuit).charge extra + a ≤ t.charge extra + b) ∨
      ∃ e, w.report st = some e ∧ (t.set.act (i, st)).bus = t.set.bus.publish e ∧
        ({ t with set := t.set.act (i, st) } : Circuit).charge extra + a ≤
          t.charge extra + b + t.hands.length * toll extra t.set.workers.length e := by
  have hacts := SubscriberSet.act_acts t.set (i, st)
  have hworkers := workersDue_advance extra hw hdue
  have hsize : (t.set.act (i, st)).workers.length = t.set.workers.length := by
    rw [hacts.workers_eq, SubscriberSet.advance, List.length_modify]
  rw [← hacts.workers_eq] at hworkers
  simp only [charge]
  obtain ⟨hnone, hbus⟩ | ⟨w', e, hw', hreport, hbus⟩ := hacts.published
  · refine .inl ⟨hnone w hw, hbus, ?_⟩
    rw [listenersDue_congr extra hbus hacts.listeners_eq hsize]
    omega
  · cases Option.some.inj (hw.symm.trans hw')
    have hlisteners := listenersDue_publish extra t.hands hs hbus hacts.listeners_eq hsize
    exact .inr ⟨e, hreport, hbus, by omega⟩

/-- **A move that is not a publication is paid for.** Either nothing is published; or it is what a
subscriber says over an event, and that event need not be charged for any more. -/
theorem Goes.pays (h : Goes t m t') (hinner : m.published? = none) (hs : t.Sound)
    (hkeeps : t.KeepsUp) :
    (t'.set.bus.accepted = t.set.bus.accepted ∧ t'.charge extra + 1 ≤ t.charge extra) ∨
      ∃ subscriber ∈ t.set.workers.map Worker.subscriber, ∃ e e', subscriber.Answers e e' ∧
        t'.set.bus = t.set.bus.publish e' ∧
        t'.charge extra + (extra e + 1) ≤
          t.charge extra + t.hands.length * toll extra t.set.workers.length e' := by
  cases h with
  | publishes e => cases hinner
  | @reads l receiver e bus hhand hreceiver hreceive =>
    left
    have hread := listenersDue_read extra hs.set hhand hreceiver hreceive
    obtain ⟨next, -, rfl, -⟩ := Bus.unread_of_receive hreceive
    refine ⟨rfl, ?_⟩
    simp only [charge]
    omega
  | lags hreceiver hreceive =>
    exact absurd ⟨_, hreceiver, Bus.lags_of_receive hreceive⟩ (hkeeps _)
  | @offers l i e rest hhand =>
    have hoffer (set : SubscriberSet) :
        ({ set, hands := t.hands.set l rest } : Circuit).charge extra + (extra e + 3) ≤
          ({ t with set } : Circuit).charge extra := by
      have := listenersDue_offer extra (s := set) hhand
      simp only [charge]
      omega
    cases hw : t.set.workers[i]? with
    | none =>
      have hsame : t.set.act (i, .offer e) = t.set := by
        rw [SubscriberSet.act, SubscriberSet.emitTo, hw]
      have hnothing : ({ set := t.set, hands := t.hands.set l rest } : Circuit).charge extra +
        (extra e + 3) ≤ t.charge extra := hoffer t.set
      rw [hsame]
      exact .inl ⟨rfl, by omega⟩
    | some w =>
      have hact := hoffer (t.set.act (i, .offer e))
      obtain ⟨hreport, hbus, hcharge⟩ | ⟨e', hreport, hbus, hcharge⟩ :=
        charge_act extra hs.set (a := 0) hw (w.due_offer extra e)
      · rw [Worker.report] at hreport
        rw [if_pos hreport] at hcharge
        exact .inl ⟨by rw [hbus], by omega⟩
      · rw [Worker.report] at hreport
        rw [hreport, if_neg (Option.some_ne_none e')] at hcharge
        exact .inr ⟨_, List.mem_map.2 ⟨w, List.mem_of_getElem? hw, rfl⟩, e, e',
          Worker.answers_of_refusalReport hreport, hbus, by omega⟩
  | @takesUp i w e queue hw hcurrent hqueue =>
    obtain ⟨-, hbus, hact⟩ | ⟨e', hreport, -⟩ := charge_act extra hs.set (b := 0) hw
      (Nat.le_of_eq (Worker.due_takeUp extra hcurrent hqueue))
    · exact .inl ⟨by rw [hbus], hact⟩
    · cases hreport
  | @finishes i w e hw hcurrent =>
    obtain ⟨-, hbus, hact⟩ | ⟨e', hreport, hbus, hact⟩ := charge_act extra hs.set (b := 0) hw
      (Worker.due_finish extra hcurrent)
    · exact .inl ⟨by rw [hbus], by omega⟩
    · rw [Worker.report, hcurrent, Option.bind_some] at hreport
      exact .inr ⟨_, List.mem_map.2 ⟨w, List.mem_of_getElem? hw, rfl⟩, e, e',
        Worker.answers_of_panicReport hreport, hbus, hact⟩

end Circuit

end

/-! ## Runs -/

namespace Circuit

variable {t t' : Circuit} {m : Move} {moves : List Move}

/-- Some moves that are made one after the other, while no listener lags. -/
inductive Runs : Circuit → List Move → Circuit → Prop
  | nil {t : Circuit} (hkeeps : t.KeepsUp) : Runs t [] t
  | cons {t t' t'' : Circuit} {m : Move} {moves : List Move} (hkeeps : t.KeepsUp)
      (h : t.go? m = some t') (hrest : Runs t' moves t'') : Runs t (m :: moves) t''

theorem Runs.append {t'' : Circuit} {moves' : List Move} (h : Runs t moves t')
    (h' : Runs t' moves' t'') : Runs t (moves ++ moves') t'' := by
  induction h with
  | nil => exact h'
  | cons hkeeps hgo _ ih => exact .cons hkeeps hgo (ih h')

/-- Nothing is left to do. -/
structure Quiescent (t : Circuit) : Prop where
  unread_eq : ∀ l, t.set.unread l = []
  hand_eq : ∀ hand ∈ t.hands, hand = []
  rests : ∀ w ∈ t.set.workers, w.Rests

/-- A listener with something in hand can offer it. -/
theorem go?_offer {l : Nat} {x : Nat × Event} {rest : List (Nat × Event)}
    (h : t.hands[l]? = some (x :: rest)) : t.go? (.offer l) ≠ none := by
  rw [go?, h]
  exact Option.some_ne_none _

/-- A listener with nothing in hand, which does not lag, can read what it has not read. -/
theorem Sound.go?_read (hs : t.Sound) {l : Nat} (hkeeps : ¬t.set.Lags l)
    (hhand : t.hands[l]?.getD [] = []) (hunread : t.set.unread l ≠ []) :
    t.go? (.read l) ≠ none := by
  obtain ⟨e, rest, hcons⟩ := List.exists_cons_of_ne_nil hunread
  cases hreceiver : t.set.receiver? l with
  | none =>
    rw [SubscriberSet.unread, hreceiver] at hunread
    exact absurd rfl hunread
  | some receiver =>
    rw [SubscriberSet.unread_of_receiver hreceiver] at hcons
    obtain ⟨bus, hreceive⟩ :=
      Bus.receive_of_unread (fun hlags => hkeeps ⟨receiver, hreceiver, hlags⟩) hcons
    have hl : l < t.hands.length := by
      rw [hs.length_eq]
      rw [SubscriberSet.receiver?, Option.bind_eq_some_iff] at hreceiver
      obtain ⟨x, hx, -⟩ := hreceiver
      exact (List.getElem?_eq_some_iff.1 hx).1
    rw [List.getElem?_eq_getElem hl, Option.getD_some] at hhand
    have hempty : t.hands[l]? = some [] := by rw [List.getElem?_eq_getElem hl, hhand]
    simp only [go?, hempty, hreceiver, hreceive]
    exact Option.some_ne_none _

/-- **As long as something is left to do, it can be done.** -/
theorem Sound.quiescent (hs : t.Sound) (hkeeps : t.KeepsUp)
    (hstuck : ∀ m, m.published? = none → t.go? m = none) : t.Quiescent := by
  have hhand : ∀ hand ∈ t.hands, hand = [] := by
    intro hand hmem
    obtain ⟨l, hl⟩ := List.getElem?_of_mem hmem
    cases hand with
    | nil => rfl
    | cons x rest => exact absurd (hstuck (.offer l) rfl) (go?_offer hl)
  refine ⟨fun l => ?_, hhand, fun w hmem => ?_⟩
  · have hempty : t.hands[l]?.getD [] = [] := by
      cases hl : t.hands[l]? with
      | none => rfl
      | some hand => exact hhand hand (List.mem_of_getElem? hl)
    by_contra hunread
    exact hs.go?_read (hkeeps l) hempty hunread (hstuck (.read l) rfl)
  · obtain ⟨i, hi⟩ := List.getElem?_of_mem hmem
    have hcurrent : w.current = none := by
      by_contra hcurrent
      have := hstuck (.finish i) rfl
      simp only [go?, hi, if_neg hcurrent] at this
      cases this
    refine ⟨hcurrent, ?_⟩
    by_contra hqueue
    have := hstuck (.takeUp i) rfl
    simp only [go?, hi, if_pos (And.intro hcurrent hqueue)] at this
    cases this

end Circuit

end Overseer
