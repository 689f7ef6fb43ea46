import Overseer.Proofs.Subscribers.Circuit

/-!
# A listener that keeps up

A listener that has been overrun never catches up. One that never lags forwards everything that is
published, once and in order (`forwards_in_order`). The invariant is that what it has offered to a
worker, what it has in hand for it and what it has not read yet make up what was published, in that
order (`Concerns.owed`). It is never far behind: there is a bound to the steps that it takes until
it has offered all that was published so far (`Circuit.behind`), and as long as it is behind it can
take the next one.
-/

namespace Overseer

namespace Circuit

/-- What a listener has in hand. -/
def hand (t : Circuit) (l : Nat) : List (Nat × Event) := t.hands[l]?.getD []

/-- The listener that makes a move. -/
def Move.listener? : Move → Option Nat
  | read l | offer l => some l
  | publish _ | takeUp _ | finish _ => none

/-- What is published in a move. -/
def said (t : Circuit) : Move → List Event
  | .publish e => [e]
  | .read l =>
    match (t.set.receiver? l).map fun receiver => (t.set.bus.receive receiver).1 with
    | some (.lagged missed) => [SubscriberSet.lagReport missed]
    | _ => []
  | .offer l =>
    match t.hand l with
    | (i, e) :: _ => (SubscriberSet.notice t.set.workers (i, .offer e)).map Prod.snd
    | [] => []
  | .takeUp i => (SubscriberSet.notice t.set.workers (i, .takeUp)).map Prod.snd
  | .finish i => (SubscriberSet.notice t.set.workers (i, .finish)).map Prod.snd

/-- What a listener offers to a worker in a move. -/
def offered (l i : Nat) (t : Circuit) : Move → List Event
  | .offer k => if k = l then own i ((t.hand l).take 1) else []
  | .publish _ | .read _ | .takeUp _ | .finish _ => []

/-- What is to be told of some moves, one after the other. -/
def tell (what : Circuit → Move → List Event) : Circuit → List Move → List Event
  | _, [] => []
  | t, m :: moves => what t m ++ (t.go? m).elim [] fun t' => tell what t' moves

/-- Some moves that are made one after the other, while a listener does not lag. -/
inductive Follows (l : Nat) : Circuit → List Move → Circuit → Prop
  | nil {t : Circuit} (hkeeps : ¬t.set.Lags l) : Follows l t [] t
  | cons {t t' t'' : Circuit} {m : Move} {moves : List Move} (hkeeps : ¬t.set.Lags l)
      (h : t.go? m = some t') (hrest : Follows l t' moves t'') : Follows l t (m :: moves) t''

/-- What a listener still owes to a worker of what was published. -/
def owed (t : Circuit) (l i : Nat) : List Event := own i (t.hand l) ++ t.set.unread l

/-- The moves that a listener is still to make for what was published: it reads each event, and
offers it to each of the workers. -/
def behind (t : Circuit) (l : Nat) : Nat :=
  (t.set.unread l).length * (t.set.workers.length + 1) + (t.hand l).length

variable {t t' t'' : Circuit} {m : Move} {moves moves' : List Move} {l i : Nat} {e : Event}

theorem tell_append (what : Circuit → Move → List Event) (h : Follows l t moves t')
    (moves' : List Move) :
    tell what t (moves ++ moves') = tell what t moves ++ tell what t' moves' := by
  induction h with
  | nil => rfl
  | cons _ hgo _ ih =>
    rw [List.cons_append, tell, tell, hgo, Option.elim_some, Option.elim_some, ih,
      List.append_assoc]

/-! ## What a move is to a listener -/

/-- What a move is to a listener that does not lag. -/
inductive Concerns (l : Nat) (t t' : Circuit) : Move → Prop
  /-- Others move. What they publish is unread. -/
  | others {m : Move} (hm : m.listener? ≠ some l) (hhand : t'.hand l = t.hand l)
      (hunread : t'.set.unread l = t.set.unread l ++ t.said m) : Concerns l t t' m
  /-- It reads an event, to offer it to all workers. -/
  | reads {e : Event} (hhand : t.hand l = [])
      (hhand' : t'.hand l = (List.range t.set.workers.length).map fun i => (i, e))
      (hunread : t.set.unread l = e :: t'.set.unread l) (hsaid : t.said (.read l) = []) :
      Concerns l t t' (.read l)
  /-- It offers the event to one more worker. A refusal is unread. -/
  | offers {i : Nat} {e : Event} (hhand : t.hand l = (i, e) :: t'.hand l)
      (hunread : t'.set.unread l = t.set.unread l ++ t.said (.offer l)) :
      Concerns l t t' (.offer l)

end Circuit

namespace SubscriberSet

variable {s s' : SubscriberSet} {l : Nat}

/-- What is published is unread for a listener that does not lag. -/
theorem Sound.unread_publishAll (hs : s.Sound) {receiver : Nat}
    (h : s.receiver? l = some receiver) {es : List Event} (hbus : s'.bus = s.bus.publishAll es)
    (hlisteners : s'.listeners = s.listeners) (hkeeps : ¬s'.Lags l) :
    s'.unread l = s.unread l ++ es := by
  obtain ⟨next, hnext⟩ := hs.live h
  have h' : s'.receiver? l = some receiver := by rw [receiver?, hlisteners, ← receiver?, h]
  have hring : ¬(s.bus.publishAll es).Lags receiver :=
    fun hlags => hkeeps ⟨receiver, h', by rwa [hbus]⟩
  rw [unread_of_receiver h, unread_of_receiver h', hbus]
  exact hs.ring.unread_publishAll hnext hring

end SubscriberSet

namespace Circuit

variable {t t' t'' : Circuit} {m : Move} {moves moves' : List Move} {l i : Nat} {e : Event}

/-- **What a move is to a listener**, if the listener lags neither before nor after it. -/
theorem Goes.concerns (h : Goes t m t') (hs : t.Sound) {receiver : Nat}
    (hlive : t.set.receiver? l = some receiver) (hkeeps : ¬t.set.Lags l)
    (hkeeps' : ¬t'.set.Lags l) : Concerns l t t' m := by
  have hact (x : Nat × Worker.Step) (hlags : ¬(t.set.act x).Lags l) :
      (t.set.act x).unread l =
        t.set.unread l ++ (SubscriberSet.notice t.set.workers x).map Prod.snd :=
    hs.set.unread_publishAll hlive (SubscriberSet.act_acts t.set x).bus_eq
      (SubscriberSet.act_acts t.set x).listeners_eq hlags
  cases h with
  | publishes e =>
    have hbus : (t.set.publish e).bus = t.set.bus.publishAll [e] := rfl
    exact .others nofun rfl (hs.set.unread_publishAll hlive hbus rfl hkeeps')
  | @reads k receiver' e bus hhand hreceiver hreceive =>
    have hsaid : t.said (.read k) = [] := by
      rw [said, hreceiver, Option.map_some, hreceive]
    by_cases hk : k = l
    · subst hk
      refine .reads (e := e) (by rw [hand, hhand]; rfl) ?_
        (SubscriberSet.unread_read hreceiver hreceive) hsaid
      rw [hand, List.getElem?_set_self (List.getElem?_eq_some_iff.1 hhand).1]
      rfl
    · refine .others (fun h => hk (Option.some.inj h)) ?_ ?_
      · rw [hand, hand, List.getElem?_set_ne hk]
      · rw [hsaid, List.append_nil]
        exact hs.set.unread_read_of_ne hreceiver hreceive (Ne.symm hk)
  | @lags k receiver' missed bus hreceiver hreceive =>
    have hlags := Bus.lags_of_receive hreceive
    have hk : l ≠ k := by
      rintro rfl
      exact hkeeps ⟨receiver', hreceiver, hlags⟩
    have hsaid : t.said (.read k) = [SubscriberSet.lagReport missed] := by
      rw [said, hreceiver, Option.map_some, hreceive]
    obtain ⟨missed', hmissed⟩ := Bus.receive_of_lags hlags
    obtain rfl : bus = t.set.bus.moveTo receiver' t.set.bus.oldest := by
      rw [hreceive] at hmissed
      exact (Prod.mk.inj hmissed).2
    refine .others (fun h => hk (Option.some.inj h).symm) rfl ?_
    have hmoved : (t.set.bus.oldest) ≤ t.set.bus.accepted := Nat.sub_le ..
    rw [hsaid, ← hs.set.unread_moveTo hreceiver hk t.set.bus.oldest]
    exact (hs.set.moveTo hmoved).unread_publishAll hlive rfl rfl hkeeps'
  | @offers k j e rest hhand =>
    have hheld : t.hand k = (j, e) :: rest := by
      rw [hand, hhand]
      rfl
    have hsaid : t.said (.offer k) =
        (SubscriberSet.notice t.set.workers (j, .offer e)).map Prod.snd := by
      rw [said, hheld]
    by_cases hk : k = l
    · subst hk
      refine .offers (i := j) (e := e) ?_ (by rw [hsaid]; exact hact _ hkeeps')
      rw [hheld, hand, List.getElem?_set_self (List.getElem?_eq_some_iff.1 hhand).1]
      rfl
    · refine .others (fun h => hk (Option.some.inj h)) ?_ (by rw [hsaid]; exact hact _ hkeeps')
      rw [hand, hand, List.getElem?_set_ne hk]
  | takesUp | finishes => exact .others nofun rfl (hact _ hkeeps')

/-! ## What a listener owes -/

/-- A listener offers only in its own moves. -/
theorem offered_of_others (hm : m.listener? ≠ some l) : offered l i t m = [] := by
  cases m with
  | offer k => exact if_neg fun hk => hm (congrArg some hk)
  | publish | read | takeUp | finish => rfl

/-- **What a listener owed and what was published since** has been offered, or is still owed. -/
theorem Concerns.owed (h : Concerns l t t' m) (hi : i < t.set.workers.length) :
    t.owed l i ++ t.said m = offered l i t m ++ t'.owed l i := by
  cases h with
  | others hm hhand hunread =>
    rw [offered_of_others hm, Circuit.owed, Circuit.owed, hhand, hunread, List.nil_append,
      List.append_assoc]
  | @reads e hhand hhand' hunread hsaid =>
    rw [hsaid, Circuit.owed, Circuit.owed, hhand, hhand', hunread, own_range _ _ e hi,
      List.append_nil]
    rfl
  | @offers j e hhand hunread =>
    have hoffered : offered l i t (.offer l) = own i [(j, e)] := by
      rw [offered, if_pos rfl, hhand]
      rfl
    rw [hoffered, Circuit.owed, Circuit.owed, hhand, hunread,
      show (j, e) :: t'.hand l = [(j, e)] ++ t'.hand l from rfl, own_append, List.append_assoc,
      List.append_assoc]

/-- A listener has in hand no more than one event, once for each worker. -/
theorem Concerns.own_hand (h : Concerns l t t' m) (hi : i < t.set.workers.length)
    (hone : (own i (t.hand l)).length ≤ 1) : (own i (t'.hand l)).length ≤ 1 := by
  cases h with
  | others _ hhand => rwa [hhand]
  | reads _ hhand' =>
    rw [hhand', own_range _ _ _ hi]
    exact Nat.le_refl _
  | @offers j e hhand =>
    rw [hhand, show (j, e) :: t'.hand l = [(j, e)] ++ t'.hand l from rfl, own_append,
      List.length_append] at hone
    exact Nat.le_trans (Nat.le_add_left ..) hone

/-- **Each move of its own brings a listener nearer** to what was published, and what is published
puts it back. -/
theorem Concerns.behind (h : Concerns l t t' m)
    (hsize : t'.set.workers.length = t.set.workers.length) :
    t'.behind l + (if m.listener? = some l then 1 else 0) =
      t.behind l + (t.said m).length * (t.set.workers.length + 1) := by
  cases h with
  | others hm hhand hunread =>
    rw [if_neg hm, Circuit.behind, Circuit.behind, hhand, hunread, hsize, List.length_append,
      Nat.add_mul]
    omega
  | reads hhand hhand' hunread hsaid =>
    have hown : (Move.read l).listener? = some l := rfl
    rw [if_pos hown, Circuit.behind, Circuit.behind, hhand, hhand', hunread, hsaid, hsize]
    simp only [List.length_map, List.length_range, List.length_cons, List.length_nil, Nat.succ_mul,
      Nat.zero_mul]
    omega
  | offers hhand hunread =>
    have hown : (Move.offer l).listener? = some l := rfl
    rw [if_pos hown, Circuit.behind, Circuit.behind, hhand, hunread, hsize, List.length_append,
      Nat.add_mul, List.length_cons]
    omega

/-! ## What comes of some moves -/

/-- What some moves are to a listener that does not lag, and to one of the workers. -/
structure Account (l i : Nat) (t : Circuit) (moves : List Move) (t' : Circuit) : Prop where
  frame : Frame t t'
  owed_eq : t.owed l i ++ tell said t moves = tell (offered l i) t moves ++ t'.owed l i
  behind_eq : t'.behind l + moves.countP (·.listener? = some l) =
    t.behind l + (tell said t moves).length * (t.set.workers.length + 1)
  own_hand (h : (own i (t.hand l)).length ≤ 1) : (own i (t'.hand l)).length ≤ 1

theorem Follows.keeps (h : Follows l t moves t') : ¬t.set.Lags l := by
  cases h with
  | nil hkeeps | cons hkeeps => exact hkeeps

theorem Follows.keeps_last (h : Follows l t moves t') : ¬t'.set.Lags l := by
  induction h with
  | nil hkeeps => exact hkeeps
  | cons _ _ _ ih => exact ih

theorem Follows.account (h : Follows l t moves t') (hs : t.Sound) {receiver : Nat}
    (hlive : t.set.receiver? l = some receiver) (hi : i < t.set.workers.length) :
    Account l i t moves t' := by
  induction h with
  | nil =>
    exact ⟨⟨hs, rfl, rfl, rfl⟩, List.append_nil _, by simp [tell], id⟩
  | @cons t t' t'' m moves hkeeps hgo hrest ih =>
    have hgoes := goes_of_go? hgo
    have hframe := hgoes.frame hs
    have hconcerns := hgoes.concerns hs hlive hkeeps hrest.keeps
    have hlive' : t'.set.receiver? l = some receiver := by
      rw [SubscriberSet.receiver?, hframe.listeners_eq]
      exact hlive
    have hthen := ih hframe.sound hlive' (by rwa [hframe.size_eq])
    refine ⟨hframe.trans hthen.frame, ?_, ?_,
      fun hone => hthen.own_hand (hconcerns.own_hand hi hone)⟩
    · rw [tell, tell, hgo, Option.elim_some, Option.elim_some, ← List.append_assoc,
        hconcerns.owed hi, List.append_assoc, hthen.owed_eq, List.append_assoc]
    · have hstep := hconcerns.behind hframe.size_eq
      have hbehind := hthen.behind_eq
      rw [hframe.size_eq] at hbehind
      rw [tell, hgo, Option.elim_some, List.countP_cons, List.length_append, Nat.add_mul]
      simp only [decide_eq_true_eq]
      omega

/-- A listener that is not behind by more than so many events owes no more than those. -/
theorem length_owed_le {n : Nat} (hone : (own i (t.hand l)).length ≤ 1)
    (hbehind : t.behind l ≤ n * (t.set.workers.length + 1)) : (t.owed l i).length ≤ n := by
  have hhand : (own i (t.hand l)).length ≤ (t.hand l).length := List.length_filterMap_le ..
  rw [behind] at hbehind
  rw [owed, List.length_append]
  obtain hnone | hsome := Nat.le_one_iff_eq_zero_or_eq_one.1 hone
  · rw [hnone, Nat.zero_add]
    exact Nat.le_of_mul_le_mul_right (Nat.le_trans (Nat.le_add_right ..) hbehind) (Nat.succ_pos _)
  · have hlt : (t.set.unread l).length * (t.set.workers.length + 1) <
        n * (t.set.workers.length + 1) := by omega
    rw [hsome, Nat.add_comm]
    exact Nat.lt_of_mul_lt_mul_right hlt

/-- A listener that is behind can make a move. -/
theorem Sound.can_move (hs : t.Sound) (hkeeps : ¬t.set.Lags l) (hbehind : t.behind l ≠ 0) :
    ∃ m t', m.listener? = some l ∧ t.go? m = some t' := by
  cases hhand : t.hands[l]? with
  | none =>
    have hempty : t.hand l = [] := by rw [hand, hhand, Option.getD_none]
    have hunread : t.set.unread l ≠ [] := fun hnil => hbehind (by simp [behind, hnil, hempty])
    obtain ⟨t', ht'⟩ := Option.ne_none_iff_exists'.1 (hs.go?_read hkeeps hempty hunread)
    exact ⟨_, t', rfl, ht'⟩
  | some held =>
    have hheld : t.hand l = held := by rw [hand, hhand, Option.getD_some]
    cases held with
    | nil =>
      have hunread : t.set.unread l ≠ [] := fun hnil => hbehind (by simp [behind, hnil, hheld])
      obtain ⟨t', ht'⟩ := Option.ne_none_iff_exists'.1 (hs.go?_read hkeeps hheld hunread)
      exact ⟨_, t', rfl, ht'⟩
    | cons x rest =>
      obtain ⟨t', ht'⟩ := Option.ne_none_iff_exists'.1 (go?_offer hhand)
      exact ⟨_, t', rfl, ht'⟩

/-- **A listener that never lags forwards everything, once and in order.** Whatever publishers, the
workers and the other listeners do in between: what it has offered to each of the workers and what
it still owes it are what was published, report by report and event by event. As long as it is
behind it has a move to make, and when it has made as many as it is behind, all that was published
up to then has been offered, however much more is published meanwhile. -/
theorem forwards_in_order (capacity : Nat) (subscribers : List Subscriber) (listeners : Nat)
    (hl : l < listeners) (hi : i < subscribers.length)
    (h : Follows l (start capacity subscribers listeners) moves t) :
    tell (offered l i) (start capacity subscribers listeners) moves ++ t.owed l i =
        tell said (start capacity subscribers listeners) moves ∧
      (t.behind l ≠ 0 → ∃ m t', m.listener? = some l ∧ t.go? m = some t') ∧
      ∀ moves' t', Follows l t moves' t' → t.behind l ≤ moves'.countP (·.listener? = some l) →
        tell said (start capacity subscribers listeners) moves <+:
          tell (offered l i) (start capacity subscribers listeners) (moves ++ moves') := by
  have hsound := start_sound capacity subscribers listeners
  have hunread := start_unread capacity subscribers listeners l
  obtain ⟨receiver, hlive⟩ := start_receiver capacity subscribers listeners hl
  have hsize : (start capacity subscribers listeners).set.workers.length = subscribers.length := by
    rw [start_workers, List.length_map]
  have hhand : (start capacity subscribers listeners).hand l = [] := by
    rw [hand, start, List.getElem?_replicate, if_pos hl, Option.getD_some]
  generalize start capacity subscribers listeners = t₀ at *
  have hfirst := h.account hsound hlive (hsize ▸ hi)
  have htold := hfirst.owed_eq
  rw [owed, hhand, hunread] at htold
  have hlive' : t.set.receiver? l = some receiver := by
    rw [SubscriberSet.receiver?, hfirst.frame.listeners_eq]
    exact hlive
  have hi' : i < t.set.workers.length := by rwa [hfirst.frame.size_eq, hsize]
  refine ⟨htold.symm, fun hbehind => ?_, fun moves' t' h' hmoves => ?_⟩
  · exact hfirst.frame.sound.can_move h.keeps_last hbehind
  · have hrest := h'.account hfirst.frame.sound hlive' hi'
    have hone := hrest.own_hand (hfirst.own_hand (by rw [hhand]; exact Nat.zero_le _))
    have hbehind := hrest.behind_eq
    rw [← hrest.frame.size_eq] at hbehind
    have hshort := length_owed_le (t := t') (n := (tell said t moves').length) hone (by omega)
    -- all that was published, in two ways
    have hall : tell said t₀ moves ++ tell said t moves' =
        tell (offered l i) t₀ (moves ++ moves') ++ t'.owed l i := by
      rw [tell_append _ h, List.append_assoc, ← hrest.owed_eq, ← List.append_assoc, ← htold]
      rfl
    have hlength := congrArg List.length hall
    rw [List.length_append, List.length_append] at hlength
    exact List.prefix_of_prefix_length_le ⟨_, rfl⟩ ⟨_, hall.symm⟩ (by omega)

end Circuit

end Overseer
