import Overseer.Proofs.Collection.IdleCleaning

/-!
# Times that the clock cannot show

Settings can be as long as a `Duration` is, and the clock shows less than that. Where a sum is out
of range, there is a panic, and nowhere else: the longest time that stopping a server takes is a sum
of spans (`Config.worstCaseStop_isOk_iff`), and the end of an idle time and the end of the last wait
for a child are points of time (`Supervisor.idleDeadline_isOk_iff`, `Supervisor.drop_isOk_iff`). To
stop a server asks for no such sum, so that always comes to its end.

A collection pays for the idle time of one server with all others. Whether it can be cleaned at all
depends on each server that nobody uses at the moment (`range_of_time`), and if it cannot, those
that are overdue stay (`kept_by_another`). -/

namespace Overseer

variable {η σ : Type} {H : Host η}

/-! ## Sums -/

/-- The longest time that stopping the server takes, in nanoseconds. It need not be in range. -/
def Config.stopNanos (c : Config) : Nat :=
  c.exitTimeout.nanos + c.termTimeout.nanos + c.killTimeout.nanos + 3 * c.pollPeriod.nanos

/-- The sum has a value if it is in range, for then each part of it is, too. -/
theorem Config.worstCaseStop_eq_ok_iff {c : Config} {d : Duration} :
    c.worstCaseStop = .ok d ↔ d.nanos = c.stopNanos := by
  rw [worstCaseStop, stopNanos]
  simp only [bind_eq_ok_iff, Duration.plus_eq_ok_iff, Duration.times_eq_ok_iff]
  constructor
  · rintro ⟨waits, hwaits, waits', hwaits', pauses, hpauses, hsum⟩
    rw [hsum, hwaits', hwaits, hpauses]
  · intro hsum
    have hbounded := d.bounded
    let waits : Duration := ⟨c.exitTimeout.nanos + c.termTimeout.nanos, by omega⟩
    let waits' : Duration :=
      ⟨c.exitTimeout.nanos + c.termTimeout.nanos + c.killTimeout.nanos, by omega⟩
    let pauses : Duration := ⟨3 * c.pollPeriod.nanos, by omega⟩
    exact ⟨waits, rfl, waits', rfl, pauses, rfl, hsum⟩

theorem Config.worstCaseStop_isOk_iff (c : Config) :
    c.worstCaseStop.isOk ↔ c.stopNanos < Duration.bound := by
  constructor
  · intro hok
    cases hsum : c.worstCaseStop with
    | error p =>
      rw [hsum] at hok
      cases hok
    | ok d => exact Config.worstCaseStop_eq_ok_iff.1 hsum ▸ d.bounded
  · intro hrange
    have hsum : c.worstCaseStop = .ok ⟨c.stopNanos, hrange⟩ := Config.worstCaseStop_eq_ok_iff.2 rfl
    rw [hsum]
    rfl

/-- There is a deadline if the clock can show it. -/
theorem Supervisor.idleDeadline_isOk_iff (s : Supervisor σ) :
    s.idleDeadline.isOk ↔ s.Foreseeable := by
  rw [idleDeadline_eq, Foreseeable]
  by_cases hzero : s.config.maxIdleTime = .zero
  · simp [hzero, Except.isOk, Except.toBool]
  by_cases hbound : s.idleFrom < Instant.bound
  · simp [hzero, hbound, Except.isOk, Except.toBool]
  · simp [hzero, hbound, Except.isOk, Except.toBool]

/-! ## Giving a child up -/

/-- A child that is given up is there and can be killed, and the clock cannot show when the wait for
it is over. -/
structure Escalation.Unending (H : Host η) (pid : Pid) (timeout : Duration) (h : η) : Prop where
  there : (H.reap pid h).1 = false
  killed : (H.kill pid .kill (H.reap pid h).2).1 = true
  bound_le : Instant.bound ≤ (H.now (H.kill pid .kill (H.reap pid h).2).2).nanos + timeout.nanos

theorem Escalation.killAndReap_isOk_iff (pid : Pid) (timeout pause : Duration) (h : η) :
    (killAndReap H pid timeout pause h).1.isOk ↔ ¬ Unending H pid timeout h := by
  have hunending : Unending H pid timeout h ↔ (H.reap pid h).1 = false ∧
      (H.kill pid .kill (H.reap pid h).2).1 = true ∧
      Instant.bound ≤ (H.now (H.kill pid .kill (H.reap pid h).2).2).nanos + timeout.nanos :=
    ⟨fun hu => ⟨hu.there, hu.killed, hu.bound_le⟩, fun hu => ⟨hu.1, hu.2.1, hu.2.2⟩⟩
  rw [killAndReap, hunending]
  generalize H.reap pid h = looked
  obtain ⟨gone, h₁⟩ := looked
  cases gone with
  | true => exact iff_of_true rfl fun hu => Bool.noConfusion hu.1
  | false =>
    simp only
    generalize H.kill pid .kill h₁ = shot
    obtain ⟨sent, h₂⟩ := shot
    cases sent with
    | false => exact iff_of_true rfl fun hu => Bool.noConfusion hu.2.1
    | true =>
      simp only [Instant.plus_eq]
      by_cases hrange : (H.now h₂).nanos + timeout.nanos < Instant.bound
      · simp only [dif_pos hrange]
        exact iff_of_true rfl fun hu => Nat.not_lt_of_le hu.2.2 hrange
      · simp only [dif_neg hrange]
        exact iff_of_false Bool.false_ne_true
          (not_not_intro ⟨trivial, trivial, Nat.le_of_not_lt hrange⟩)

/-- Where the child's end of the line is closed, if it is still open. -/
def Supervisor.unlined (H : Host η) (x : Scene η σ) : η :=
  match x.supervisor.life with
  | .started _ line _ _ => H.closeLine line x.host
  | _ => x.host

/-- A supervisor that is dropped has a child that was not seen to be gone, and the clock cannot show
when the wait for it is over. -/
structure Scene.Unending (H : Host η) (x : Scene η σ) : Prop where
  reaped_eq : x.supervisor.life.reaped = false
  child : ∃ pid, x.supervisor.life.pid? = some pid ∧
    Escalation.Unending H pid x.supervisor.config.killTimeout (Supervisor.unlined H x)

namespace Supervisor

variable {x : Scene η σ}

/-- A child that is known to be gone, or that there is not, is let alone. -/
theorem drop_fst_of_reaped
    (h : x.supervisor.life.pid? = none ∨ x.supervisor.life.reaped = true) :
    (drop H x).1 = .ok () := by
  rw [drop, bind_run, get_run]
  cases hlife : x.supervisor.life with
  | notStarted => rfl
  | started | stopped =>
    rw [hlife] at h
    obtain rfl : _ = true := h.resolve_left (Option.some_ne_none _)
    rfl

/-- Any other child is killed and waited for. -/
theorem drop_fst_of_unreaped {pid : Pid} (hpid : x.supervisor.life.pid? = some pid)
    (hreaped : x.supervisor.life.reaped = false) :
    (drop H x).1 = (Escalation.killAndReap H pid x.supervisor.config.killTimeout
      x.supervisor.config.pollPeriod (unlined H x)).1.map fun _ => () := by
  rw [drop, bind_run, get_run, unlined]
  cases hlife : x.supervisor.life with
  | notStarted =>
    rw [hlife] at hpid
    cases hpid
  | started | stopped =>
    rw [hlife] at hpid hreaped
    cases hpid
    obtain rfl : _ = false := hreaped
    rfl

theorem drop_isOk_iff (x : Scene η σ) : (drop H x).1.isOk ↔ ¬ x.Unending H := by
  by_cases hgone : x.supervisor.life.pid? = none ∨ x.supervisor.life.reaped = true
  · rw [drop_fst_of_reaped hgone]
    refine iff_of_true rfl fun hu => ?_
    obtain ⟨pid, hpid, -⟩ := hu.child
    obtain hnone | hreaped := hgone
    · cases hnone.symm.trans hpid
    · cases hreaped.symm.trans hu.reaped_eq
  · obtain ⟨hborn, hreaped⟩ := not_or.1 hgone
    rw [Bool.not_eq_true] at hreaped
    obtain ⟨pid, hpid⟩ := Option.ne_none_iff_exists'.1 hborn
    have hmap (out : Except Panic Bool) : (out.map fun _ => ()).isOk = out.isOk := by
      cases out <;> rfl
    rw [drop_fst_of_unreaped hpid hreaped, hmap, Escalation.killAndReap_isOk_iff, not_iff_not]
    constructor
    · exact fun hu => ⟨hreaped, pid, hpid, hu⟩
    · rintro ⟨-, pid', hpid', hu⟩
      cases hpid.symm.trans hpid'
      exact hu

end Supervisor

/-! ## Cleaning -/

namespace Collection

/-- The panic over an idle time is always the same. -/
theorem eq_of_idlePanic?_eq_some {c : Collection σ} {p : Panic} (h : c.idlePanic? = some p) :
    p = .text "overflow when adding duration to instant" := by
  obtain ⟨entry, -, hentry⟩ := List.exists_of_findSome?_eq_some h
  obtain ⟨slot, -, hslot⟩ := Option.bind_eq_some_iff.1 hentry
  rw [Slot.idlePanic?_eq] at hslot
  split at hslot
  · cases hslot
  · exact (Option.some.inj hslot).symm

/-- Nothing comes of cleaning if the clock cannot show when some server becomes idle. -/
theorem perform_cleanIdle_of_panic {c : Caller η σ} {p : Panic}
    (hpanic : c.site.collection.idlePanic? = some p) (times : Nat) :
    c.perform H times (cleanIdle H) = (some (.error p), c) := by
  have htake : takeIdle (H.now c.site.host) c.site = (.error p, c.site) := by
    rw [takeIdle, hpanic]
  have hproceed : (cleanIdle H).proceed (Site.grant H) c.site = (.done (.error p), c.site) := by
    rw [cleanIdle]
    show (Activity.atOnce (takeIdle (H.now c.site.host)) >>= _).proceed (Site.grant H) c.site = _
    rw [Activity.proceed_atOnce_bind, htake]
    rfl
  rw [Caller.perform, hproceed]

/-- **Where time is out of range** there is a panic, and nowhere else. The longest time that
stopping takes has a value if the sum is in range, and so has the end of an idle time. A supervisor
can be dropped without a panic unless the clock cannot show when the wait for its child is over, and
it can always be stopped. A collection is cleaned if the clock can show when those servers become
idle that nobody uses; else none of them is, and nothing is changed. -/
theorem range_of_time (hH : H.KeepsTime) :
    (∀ config : Config, config.worstCaseStop.isOk ↔ config.stopNanos < Duration.bound) ∧
    (∀ s : Supervisor σ, s.idleDeadline.isOk ↔ s.Foreseeable) ∧
    (∀ x : Scene η σ, (Supervisor.drop H x).1.isOk ↔ ¬ x.Unending H) ∧
    ∀ c : Caller η σ, c.cleaners = [] →
      (∀ h slot, c.site.collection.slot? h = some slot → slot.locked = false →
        ∃ tier s' enough, ∀ times, enough ≤ times →
          c.perform H times (stopSlot H h) = (some (.ok tier), { c with site := s' })) ∧
      (c.site.collection.Sound →
        (c.site.collection.Foreseeable → ∃ keys s' enough, ∀ times, enough ≤ times →
          c.perform H times (cleanIdle H) = (some (.ok keys), { c with site := s' })) ∧
        (¬ c.site.collection.Foreseeable → ∀ times, c.perform H times (cleanIdle H) =
          (some (.error (.text "overflow when adding duration to instant")), c))) := by
  refine ⟨Config.worstCaseStop_isOk_iff, Supervisor.idleDeadline_isOk_iff,
    Supervisor.drop_isOk_iff, fun c hc => ⟨fun h slot hslot hfree => ?_, fun hsound => ⟨?_, ?_⟩⟩⟩
  · obtain ⟨tier, s', -, halone, -⟩ := alone_stopSlot hH hslot hfree
    exact ⟨tier, s', Caller.perform_of_alone hc halone⟩
  · intro hclock
    obtain ⟨s', halone, -⟩ := alone_cleanIdle hH hsound ((idlePanic?_eq_none_iff hsound).2 hclock)
    exact ⟨_, s', Caller.perform_of_alone hc halone⟩
  · intro hclock times
    rw [← idlePanic?_eq_none_iff hsound] at hclock
    obtain ⟨p, hpanic⟩ := Option.ne_none_iff_exists'.1 hclock
    rw [← eq_of_idlePanic?_eq_some hpanic]
    exact perform_cleanIdle_of_panic hpanic times

/-- All times are as long as can be. -/
def patient : Config where
  exitTimeout := .longest
  termTimeout := .longest
  killTimeout := .longest
  reapInterval := .longest
  maxIdleTime := .longest

/-- A server that may stay unused for the longest of all times, and one that is overdue. -/
def storeroom : Site Watch Unit where
  collection :=
    { entries := [("patient", 0), ("due", 1)]
      slots :=
        [{ supervisor :=
            { resting 0 (.started 7 ⟨3, 4⟩ {} false) with config := patient } },
          { supervisor := resting 10 (.started 8 ⟨5, 6⟩ {} false) }] }
  host := { time := 10_000_000 }

/-- With such settings a server can be stopped, if anybody cares to wait. How long that takes has no
value, though, and neither can the server be given up nor its collection be cleaned. -/
theorem range_of_time_storeroom :
    let H := Chronicle.stubborn.host
    let c : Caller Watch Unit := { site := storeroom }
    patient.worstCaseStop.isOk = false ∧
      (∀ x ∈ storeroom.scene? 0, (Supervisor.drop H x).1.isOk = false) ∧
      (∃ tier s' enough, ∀ times, enough ≤ times →
        c.perform H times (stopSlot H 0) = (some (.ok tier), { c with site := s' })) ∧
      ∀ times, c.perform H times (cleanIdle H) =
        (some (.error (.text "overflow when adding duration to instant")), c) := by
  intro H c
  obtain ⟨hworst, -, hdrop, hcaller⟩ := range_of_time (σ := Unit) Chronicle.stubborn.keepsTime
  obtain ⟨hstop, hclean⟩ := hcaller c rfl
  have hsound : storeroom.collection.Sound := by decide +kernel
  have hblind : ¬ storeroom.collection.Foreseeable := fun hclock =>
    (hclock "patient" _ rfl rfl).elim (by decide +kernel) (by decide +kernel)
  refine ⟨?_, fun x hx => ?_, hstop 0 _ rfl rfl, (hclean hsound).2 hblind⟩
  · rw [← Bool.not_eq_true, hworst]
    decide +kernel
  · rw [← Bool.not_eq_true, hdrop, not_not]
    cases hx
    exact ⟨rfl, 7, rfl, by decide +kernel, by decide +kernel, by decide +kernel⟩

/-- A server that is overdue stays because another one may stay unused for so long. -/
theorem kept_by_another :
    let H := Chronicle.stubborn.host
    let c : Caller Watch Unit := { site := storeroom }
    (∃ slot, storeroom.collection.slotUnder? "due" = some slot ∧
      slot.Overdue (H.now storeroom.host)) ∧
    c.perform H 9 (cleanIdle H) =
      (some (.error (.text "overflow when adding duration to instant")), c) :=
  ⟨⟨_, rfl, Slot.isIdle_iff.1 (by decide +kernel)⟩, rfl⟩

end Collection

end Overseer
