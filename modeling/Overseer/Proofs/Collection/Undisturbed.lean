import Overseer.Collection.Caller
import Overseer.Proofs.Collection.Accounts
import Overseer.Proofs.Duration
import Overseer.Proofs.Supervisor.Farewell

/-!
# Calls that nobody comes between

Of a call that has a collection to itself, `LongDeed.alone?` says what comes of it. What it waits
for comes by itself or not at all (`Site.abide`): time passes until the clock is where it is to be,
and a lock that somebody holds is not given back meanwhile. That is what a caller without cleaners
gets to see, if it has the patience (`Caller.perform_of_alone`). On a host that keeps time, to stop
the supervisor of a handle that nobody uses comes to its end, and nothing that belongs to another
handle is touched (`alone_stopSlot`).
-/

namespace Overseer

namespace Activity

variable {S W α β : Type} {grant : W → S → Option S}

/-- What comes of an activity that nobody comes between, if each of its waits is granted. -/
def finish? (grant : W → S → Option S) : Activity S W α → S → Option (α × S)
  | done a, s => some (a, s)
  | step change next, s => (next s).finish? grant (change s)
  | wait what next, s => (grant what s).bind (next.finish? grant)

theorem finish?_bind (x : Activity S W α) (f : α → Activity S W β) (s : S) :
    (x >>= f).finish? grant s =
      (x.finish? grant s).bind fun out => (f out.1).finish? grant out.2 := by
  induction x generalizing s with
  | done a => rfl
  | step change next ih => exact ih s (change s)
  | wait what next ih =>
    show (grant what s).bind _ = ((grant what s).bind _).bind _
    cases grant what s with
    | none => rfl
    | some s' => exact ih s'

/-- An activity that has gone on as far as it can stays there. -/
theorem proceed_proceed (x : Activity S W α) (s : S) :
    (x.proceed grant s).1.proceed grant (x.proceed grant s).2 = x.proceed grant s := by
  induction x generalizing s with
  | done a => rfl
  | step change next ih => exact ih s (change s)
  | wait what next ih =>
    rw [proceed]
    cases hgrant : grant what s with
    | some s' => exact ih s'
    | none => simp only [proceed, hgrant]

theorem proceed_atOnce_bind (f : StateM S α) (next : α → Activity S W β) (s : S) :
    (atOnce f >>= next).proceed grant s = (next (f s).1).proceed grant (f s).2 := rfl

end Activity

variable {η σ α β : Type} (H : Host η)

/-- Waits while nobody else has a turn. -/
def Site.abide (what : Wait) (s : Site η σ) : Option (Site η σ) :=
  match what with
  | .clock time => Site.grant H (.clock time) (s.sleepUntil H time)
  | .lock h => Site.grant H (.lock h) s
  | .panicked _ => none

/-- Does something over some time while nobody else has a turn. There is no answer if it waits for
what never comes. -/
def LongDeed.alone? (deed : LongDeed η σ α) (s : Site η σ) : Option (α × Site η σ) :=
  deed.finish? (Site.abide H) s

variable {H} {s s' s'' : Site η σ} {h : Handle} {slot : Slot σ}

/-! ## Waiting -/

/-- A clock that keeps time comes to every point. -/
theorem Site.abide_clock (hH : H.KeepsTime) (time : Instant) (s : Site η σ) :
    s.abide H (.clock time) = some (s.sleepUntil H time) := by
  suffices hcome : time ≤ H.now (s.sleepUntil H time).host from if_pos hcome
  rw [sleepUntil]
  split
  · next hpast => exact hpast
  · next hahead =>
    have hle : H.now s.host ≤ time := Nat.le_of_lt (Nat.lt_of_not_le hahead)
    have hslept := hH.sleep (time.since (H.now s.host)) s.host
    rwa [Instant.later_since hle] at hslept

theorem Site.abide_lock (hslot : s.collection.slot? h = some slot) (hfree : slot.locked = false) :
    s.abide H (.lock h) = some (s.setLocked h true) := by
  have hopen : s.isLocked h = false := by simp [isLocked, hslot, hfree]
  exact if_neg (by rw [hopen]; exact Bool.false_ne_true)

/-- What is granted at once need not be waited for. -/
theorem Site.abide_of_grant {what : Wait} (h : Site.grant H what s = some s') :
    s.abide H what = some s' := by
  cases what with
  | lock => exact h
  | panicked => cases h
  | clock time =>
    have hpast : time ≤ H.now s.host := by
      by_contra hahead
      cases h.symm.trans (if_neg hahead)
    show Site.grant H (.clock time) (s.sleepUntil H time) = some s'
    rwa [sleepUntil, if_pos hpast]

namespace LongDeed

theorem alone_bind (deed : LongDeed η σ α) (f : α → LongDeed η σ β) (s : Site η σ) :
    (deed >>= f).alone? H s = (deed.alone? H s).bind fun out => (f out.1).alone? H out.2 :=
  Activity.finish?_bind deed f s

theorem alone_atOnce (deed : Deed η σ α) (s : Site η σ) :
    LongDeed.alone? H (Activity.atOnce deed) s = some (deed s) := rfl

/-- What is done while a free slot is held. -/
theorem alone_holding (deed : LongDeed η σ α) (hslot : s.collection.slot? h = some slot)
    (hfree : slot.locked = false) :
    (holding h deed).alone? H s =
      (deed.alone? H (s.setLocked h true)).map fun out => (out.1, out.2.setLocked h false) := by
  have hawait : LongDeed.alone? H (Activity.await (.lock h)) s = some ((), s.setLocked h true) :=
    congrArg (Option.bind · (fun s => some ((), s))) (Site.abide_lock hslot hfree)
  rw [holding, alone_bind, hawait, Option.bind_some, alone_bind]
  cases deed.alone? H (s.setLocked h true) <;> rfl

end LongDeed

/-! ## A caller that has its collection to itself -/

namespace Caller

variable {c : Caller η σ} {a : α}

theorem letClean_of_alone (hc : c.cleaners = []) : c.letClean H = c := by
  rw [letClean, hc]
  obtain ⟨site, kept, locks, cleaners, joinable⟩ := c
  cases hc
  rfl

theorem attend_of_alone (hc : c.cleaners = []) (times : Nat) (deed : LongDeed η σ α) :
    attend H (times + 1) deed c = perform H (times + 1) c deed := by
  rw [attend, letClean_of_alone hc, perform]
  have hstill : (deed.proceed (Site.grant H) c.site).1.proceed (Site.grant H)
      (deed.proceed (Site.grant H) c.site).2 = deed.proceed (Site.grant H) c.site :=
    Activity.proceed_proceed deed c.site
  generalize deed.proceed (Site.grant H) c.site = out at hstill ⊢
  obtain ⟨rest, site⟩ := out
  cases rest with
  | done a => rfl
  | step | wait =>
    show _ = attend H (times + 1) _ { c with site }
    rw [attend, letClean_of_alone (c := { c with site }) hc]
    simp only at hstill
    simp only [hstill]

theorem perform_wait {what : Wait} {next : LongDeed η σ α} {s₁ : Site η σ} (times : Nat)
    (hgrant : Site.grant H what c.site = some s₁) :
    perform H times c (.wait what next) = perform H times { c with site := s₁ } next := by
  simp only [perform, Activity.proceed, hgrant]

/-- Who waits for a point of time has nothing else to do until then. -/
theorem perform_clock {time : Instant} {next : LongDeed η σ α} {s₁ : Site η σ}
    (hc : c.cleaners = []) (times : Nat) (hwait : Site.grant H (.clock time) c.site = none)
    (hcome : Site.grant H (.clock time) (c.site.sleepUntil H time) = some s₁) :
    perform H (times + 2) c (.wait (.clock time) next) =
      perform H (times + 1) { c with site := s₁ } next := by
  have hstuck : (Activity.wait (.clock time) next).proceed (Site.grant H) c.site =
      (.wait (.clock time) next, c.site) := by
    simp only [Activity.proceed, hwait]
  have hpass : c.passTime H (some time) = some { c with site := c.site.sleepUntil H time } := by
    rw [passTime, hc]
    rfl
  have hslept : perform H (times + 2) c (.wait (.clock time) next) =
      attend H (times + 1) (.wait (.clock time) next)
        { c with site := c.site.sleepUntil H time } := by
    rw [perform, hstuck]
    show attend H (times + 2) (.wait (.clock time) next) c = _
    rw [attend, letClean_of_alone hc, hstuck]
    simp only [Activity.awaited?, Option.bind_some, Site.grantedAt?, hpass]
  rw [hslept, attend_of_alone (by exact hc), perform_wait _ hcome]

/-- **A caller without cleaners has its collection to itself**: what comes of a call that nobody
comes between comes of it, if it may let time pass often enough. -/
theorem perform_of_alone {deed : LongDeed η σ α} (hc : c.cleaners = [])
    (h : deed.alone? H c.site = some (a, s')) :
    ∃ enough, ∀ times, enough ≤ times →
      c.perform H times deed = (some a, { c with site := s' }) := by
  induction deed generalizing c with
  | done a' =>
    cases h
    exact ⟨0, fun times _ => rfl⟩
  | step change next ih => exact ih c.site (c := { c with site := change c.site }) hc h
  | wait what next ih =>
    obtain ⟨s₁, habide, hnext⟩ := Option.bind_eq_some_iff.1 h
    obtain ⟨enough, hperform⟩ := ih (c := { c with site := s₁ }) hc hnext
    cases hgrant : Site.grant H what c.site with
    | some s₂ =>
      cases (Site.abide_of_grant hgrant).symm.trans habide
      exact ⟨enough, fun times hle => (perform_wait times hgrant).trans (hperform times hle)⟩
    | none =>
      cases what with
      | lock => cases hgrant.symm.trans habide
      | panicked => cases habide
      | clock time =>
        refine ⟨enough + 2, fun times hle => ?_⟩
        obtain ⟨more, rfl⟩ := Nat.exists_eq_add_of_le' (Nat.le_of_add_left_le hle)
        rw [perform_clock hc more hgrant habide]
        exact hperform _ (by omega)

end Caller

namespace Collection

/-! ## What is left alone -/

/-- What was done has to do with one handle only: its supervisor has gone on in its life. -/
structure Tends (h : Handle) (s s' : Site η σ) : Prop where
  entries_eq : s'.collection.entries = s.collection.entries
  announces_eq : s'.collection.announces = s.collection.announces
  slot?_eq : ∀ k, k ≠ h → s'.collection.slot? k = s.collection.slot? k
  slot?_some : ∀ slot, s.collection.slot? h = some slot →
    ∃ slot', s'.collection.slot? h = some slot' ∧
      slot.supervisor.life.stage ≤ slot'.supervisor.life.stage
  hushed : Hushed s s'

namespace Tends

theorem of_same (hcollection : s'.collection = s.collection) (hhushed : Hushed s s') :
    Tends h s s' where
  entries_eq := by rw [hcollection]
  announces_eq := by rw [hcollection]
  slot?_eq k _ := by rw [hcollection]
  slot?_some slot hslot := ⟨slot, by rw [hcollection, hslot], Nat.le_refl _⟩
  hushed := hhushed

theorem refl (s : Site η σ) : Tends h s s := of_same rfl (.refl s)

theorem trans (ht : Tends h s s') (ht' : Tends h s' s'') : Tends h s s'' where
  entries_eq := ht'.entries_eq.trans ht.entries_eq
  announces_eq := ht'.announces_eq.trans ht.announces_eq
  slot?_eq k hk := (ht'.slot?_eq k hk).trans (ht.slot?_eq k hk)
  slot?_some slot hslot := by
    obtain ⟨slot', hslot', hle⟩ := ht.slot?_some slot hslot
    obtain ⟨slot'', hslot'', hle'⟩ := ht'.slot?_some slot' hslot'
    exact ⟨slot'', hslot'', Nat.le_trans hle hle'⟩
  hushed := ht.hushed.trans ht'.hushed

/-- Another slot was put in the place of the handle's. -/
theorem of_setSlot {slot' : Slot σ} (hslot : s.collection.slot? h = some slot)
    (hcollection : s'.collection = s.collection.setSlot h slot')
    (hle : slot.supervisor.life.stage ≤ slot'.supervisor.life.stage) (hhushed : Hushed s s') :
    Tends h s s' where
  entries_eq := by rw [hcollection]; rfl
  announces_eq := by rw [hcollection]; rfl
  slot?_eq k hk := by rw [hcollection, Site.slot?_setSlot hslot, if_neg (Ne.symm hk)]
  slot?_some old hold := by
    cases hslot.symm.trans hold
    exact ⟨slot', by rw [hcollection, Site.slot?_setSlot hslot, if_pos rfl], hle⟩
  hushed := hhushed

end Tends

theorem setLocked_collection (locked : Bool) (hslot : s.collection.slot? h = some slot) :
    (s.setLocked h locked).collection = s.collection.setSlot h { slot with locked } := by
  simp [Site.setLocked, setLocked, hslot]

theorem setLocked_tends (locked : Bool) (hslot : s.collection.slot? h = some slot) :
    Tends h s (s.setLocked h locked) :=
  .of_setSlot hslot (setLocked_collection locked hslot) (Nat.le_refl _) (.refl s)

theorem slot?_setLocked (locked : Bool) (hslot : s.collection.slot? h = some slot) :
    (s.setLocked h locked).collection.slot? h = some { slot with locked } := by
  rw [setLocked_collection locked hslot, Site.slot?_setSlot hslot, if_pos rfl]

theorem setSlot_setSlot (c : Collection σ) (h : Handle) (slot slot' : Slot σ) :
    (c.setSlot h slot).setSlot h slot' = c.setSlot h slot' := by
  rw [setSlot, setSlot, List.set_set, setSlot]

theorem setSlot_self {c : Collection σ} (hslot : c.slot? h = some slot) : c.setSlot h slot = c := by
  obtain ⟨hlt, hget⟩ := List.getElem?_eq_some_iff.1 hslot
  rw [setSlot, ← hget, List.set_getElem_self]

/-- To lock a free slot and unlock it again is to do nothing. -/
theorem unlock_lock (hslot : s.collection.slot? h = some slot) (hfree : slot.locked = false) :
    (s.setLocked h true).setLocked h false = s := by
  have hsame : { slot with locked := false } = slot := by rw [← hfree]
  have hcollection : ((s.setLocked h true).setLocked h false).collection = s.collection := by
    rw [setLocked_collection false (slot?_setLocked true hslot), setLocked_collection true hslot,
      setSlot_setSlot, hsame, setSlot_self hslot]
  exact congrArg (fun c => { s with collection := c }) hcollection

theorem put_collection (x : Scene η σ) (hslot : s.collection.slot? h = some slot) :
    (s.put h x).collection = s.collection.setSlot h { slot with supervisor := x.supervisor } := by
  simp [Site.put, hslot]

theorem slot?_put (x : Scene η σ) (hslot : s.collection.slot? h = some slot) :
    (s.put h x).collection.slot? h = some { slot with supervisor := x.supervisor } := by
  rw [put_collection x hslot, Site.slot?_setSlot hslot, if_pos rfl]

theorem put_tends {x : Scene η σ} (hslot : s.collection.slot? h = some slot)
    (hon : Onward { supervisor := slot.supervisor, host := s.host } x) : Tends h s (s.put h x) := by
  refine .of_setSlot hslot (put_collection x hslot) hon.stage_le ?_
  have hevents : (s.put h x).events =
      if slot.announces then s.events ++ x.events else s.events := by
    simp [Site.put, hslot]
  rw [Hushed, hevents]
  split
  · exact ⟨x.events, rfl, hon.kinds rfl⟩
  · exact ⟨[], (List.append_nil _).symm, List.forall_mem_nil _⟩

theorem sleepUntil_tends (time : Instant) (s : Site η σ) : Tends h s (s.sleepUntil H time) := by
  rw [Site.sleepUntil]
  split
  · exact .refl s
  · exact .of_same rfl (.refl s)

/-! ## Supervisors at work -/

/-- **What a supervisor does over some time comes to its end**, whatever its host does meanwhile. -/
theorem alone_on {act : LongAct η σ α} {post : α → Prop} (hH : H.KeepsTime)
    (hact : Activity.Each Onward post act) (hslot : s.collection.slot? h = some slot) :
    ∃ a s', (LongDeed.on H h act).alone? H s = some (some a, s') ∧ post a ∧ Tends h s s' := by
  induction act generalizing s slot with
  | done a => exact ⟨a, s, rfl, hact, .refl s⟩
  | step change next ih =>
    have hscene : s.scene? h = some { supervisor := slot.supervisor, host := s.host } := by
      simp [Site.scene?, hslot]
    obtain ⟨⟨⟩, hon, hnext⟩ := hact { supervisor := slot.supervisor, host := s.host } trivial
    have htends := put_tends hslot hon
    obtain ⟨a, s', hrun, hpost, hrest⟩ := ih _ hnext (slot?_put _ hslot)
    refine ⟨a, s', ?_, hpost, htends.trans hrest⟩
    rw [LongDeed.on, Activity.within, LongDeed.alone?, Activity.finish?]
    simp only [hscene, Option.elim_some]
    exact hrun
  | wait span next ih =>
    obtain ⟨slot', hslot', -⟩ := (sleepUntil_tends (H := H)
      ((H.now s.host).later span) s).slot?_some slot hslot
    obtain ⟨a, s', hrun, hpost, hrest⟩ := ih hact hslot'
    refine ⟨a, s', ?_, hpost, (sleepUntil_tends _ s).trans hrest⟩
    rw [LongDeed.on, Activity.within, LongDeed.alone?, Activity.finish?, Activity.finish?, id,
      Site.abide_clock hH]
    exact hrun

/-- To hang up leaves no channel open, and what follows it does not open one. -/
theorem alone_stop (hH : H.KeepsTime) (hslot : s.collection.slot? h = some slot) :
    ∃ answer s' slot', (LongDeed.on H h (Supervisor.stop H)).alone? H s = some (some answer, s') ∧
      Supervisor.StopAnswer answer ∧ Tends h s s' ∧
        s'.collection.slot? h = some slot' ∧ slot'.supervisor.life.isStarted = false := by
  let x : Scene η σ := { supervisor := slot.supervisor, host := s.host }
  have hscene : s.scene? h = some x := by
    rw [Site.scene?, hslot]
    rfl
  obtain ⟨hon, hstops, hanswer⟩ := Supervisor.hangUp_onward H x
  have htends := put_tends hslot hon
  have hput := slot?_put (Supervisor.hangUp H x).2 hslot
  have hrun : (LongDeed.on H h (Supervisor.stop H)).alone? H s =
      (LongDeed.on H h (Supervisor.afterHangUp H (Supervisor.hangUp H x).1)).alone? H
        (s.put h (Supervisor.hangUp H x).2) := by
    rw [LongDeed.on, Supervisor.stop_eq, Activity.within, LongDeed.alone?, Activity.finish?]
    simp only [hscene, Option.elim_some]
    rfl
  rw [hrun]
  by_cases hborn : 1 ≤ slot.supervisor.life.stage
  · obtain ⟨answer, s', hrest, hpost, htends'⟩ :=
      alone_on hH (Supervisor.afterHangUp_onward H _ hanswer) hput
    obtain ⟨slot', hslot', hle⟩ := htends'.slot?_some _ hput
    refine ⟨answer, s', slot', hrest, hpost, htends.trans htends', hslot', ?_⟩
    have hstopped : 2 ≤ slot'.supervisor.life.stage :=
      Nat.le_trans (Nat.le_of_eq (Life.stage_eq_two.2 (hstops hborn)).symm) hle
    rw [← Bool.not_eq_true, ← Life.stage_eq_one]
    omega
  · have hunborn : slot.supervisor.life = .notStarted := by
      cases hlife : slot.supervisor.life with
      | notStarted => rfl
      | started | stopped => simp [hlife, Life.stage] at hborn
    have hidle : Supervisor.hangUp H x = (.error .notStarted, x) := by
      rw [Supervisor.hangUp, Supervisor.bind_run, Supervisor.get_run, hunborn]
      rfl
    rw [hidle] at hput htends ⊢
    exact ⟨_, _, _, rfl, .inr rfl, htends, hput, by rw [hunborn]; rfl⟩

/-- **To stop a supervisor that nobody uses** comes to its end, and its channel is closed then. -/
theorem alone_stopSlot (hH : H.KeepsTime) (hslot : s.collection.slot? h = some slot)
    (hfree : slot.locked = false) :
    ∃ tier s' slot', (stopSlot H h).alone? H s = some (.ok tier, s') ∧ Tends h s s' ∧
      s'.collection.slot? h = some slot' ∧ slot'.supervisor.life.isStarted = false := by
  obtain ⟨answer, s', slot', hrun, hanswer, htends, hslot', hclosed⟩ :=
    alone_stop hH (slot?_setLocked true hslot)
  have hheld : (LongDeed.onHeld H h (Supervisor.stop H)).alone? H s =
      some (some answer, s'.setLocked h false) := by
    rw [LongDeed.onHeld, LongDeed.alone_holding _ hslot hfree, hrun]
    rfl
  have hall : Tends h s (s'.setLocked h false) :=
    ((setLocked_tends true hslot).trans htends).trans (setLocked_tends false hslot')
  rw [stopSlot, LongDeed.alone_bind, hheld, Option.bind_some]
  obtain ⟨tier, rfl⟩ | rfl := hanswer
  · exact ⟨some tier, _, _, rfl, hall, slot?_setLocked false hslot', hclosed⟩
  · exact ⟨none, _, _, rfl, hall, slot?_setLocked false hslot', hclosed⟩

end Collection

end Overseer
