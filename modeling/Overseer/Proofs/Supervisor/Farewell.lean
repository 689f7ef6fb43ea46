import Overseer.Proofs.Supervisor.Custody
import Overseer.Proofs.Supervisor.Fate

/-!
# No child is left behind

When a supervisor is dropped, a child that was not seen to be gone is killed and looked for once
more, until the kill timeout is over. So it is gone in the end, or `Outlived`: it was there after it
was killed, for the whole of that last wait. The clock plays a part only in how long the wait is. A
clock that goes on while the host sleeps comes to the deadline before the looks run out
(`le_now_of_pollUntil`), and one that cannot show the deadline is the only thing that makes the
supervisor panic.
-/

namespace Overseer

variable {η σ : Type} {H : Host η} {pid : Pid}

/-- The clock of a host goes on while it sleeps, and never back. -/
structure Host.KeepsTime (H : Host η) : Prop where
  sleep (d : Duration) (h : η) : (H.now h).later d ≤ H.now (H.sleep d h)
  reap (pid : Pid) (h : η) : H.now h ≤ H.now (H.reap pid h).2

theorem Host.KeepsTime.traced (hH : H.KeepsTime) : H.traced.KeepsTime :=
  ⟨fun d t => hH.sleep d t.host, fun pid t => hH.reap pid t.host⟩

/-- A point that the clock can show is as far away as was asked for. -/
theorem Instant.nanos_of_plus {t deadline : Instant} {d : Duration}
    (h : t.plus d = .ok deadline) : deadline.nanos = t.nanos + d.nanos := by
  rw [plus, add?, ofNanos?] at h
  split at h
  · next t' hsome =>
    split at hsome
    · cases hsome
      cases h
      rfl
    · cases hsome
  · cases h

/-- A child has outlived its supervisor: it was there to be killed, and then there at every look
until the kill timeout was over. -/
structure Outlived (H : Host η) (pid : Pid) (config : Config) (killed last : Traced η)
    (looks : Nat) : Prop where
  kept : Kept H pid false killed.trace
  shot : [.signal pid .kill true] <:+ killed.trace
  trace_eq : last.trace = killed.trace ++ List.replicate (looks + 1) (.look pid false)
  looks_le : looks ≤ config.killTimeout.nanos / config.pollPeriod.nanos + 2
  waited : H.KeepsTime → ∃ deadline,
    (H.now killed.host).plus config.killTimeout = .ok deadline ∧ deadline ≤ H.now last.host

/-- What comes of giving a child up that was not seen to be gone. -/
inductive Farewell (H : Host η) (pid : Pid) (config : Config) : Except Panic Bool → Traced η → Prop
  /-- It is gone. -/
  | gone {last : Traced η} (h : Kept H pid true last.trace) : Farewell H pid config (.ok true) last
  | outlived {killed last : Traced η} {looks : Nat} (h : Outlived H pid config killed last looks) :
      Farewell H pid config (.ok false) last
  /-- The clock cannot show the end of the last wait. -/
  | panics {last : Traced η} {p : Panic} (h : Kept H pid false last.trace)
      (hclock : (H.now last.host).plus config.killTimeout = .error p) :
      Farewell H pid config (.error p) last

namespace Escalation

variable (H) (pid)

/-- The last wait is a run of looks at a child that is there, until it is not or the wait is
over. -/
theorem pollUntil_traced (deadline : Instant) (pause : Duration) (pauses : Nat)
    (t : Traced η) :
    ∃ looks ≤ pauses, (pollUntil H.traced pid deadline pause pauses t).2.trace =
      t.trace ++ List.replicate looks (.look pid false) ++
        [.look pid (pollUntil H.traced pid deadline pause pauses t).1] := by
  induction pauses generalizing t with
  | zero => exact ⟨0, Nat.le_refl _, by rw [List.replicate_zero, List.append_nil]; rfl⟩
  | succ pauses ih =>
    rw [pollUntil]
    have hlook : (H.traced.reap pid t).2.trace = t.trace ++ [.look pid (H.traced.reap pid t).1] :=
      rfl
    generalize H.traced.reap pid t = out at hlook
    obtain ⟨gone, t'⟩ := out
    cases gone with
    | true => exact ⟨0, Nat.zero_le _, by rw [List.replicate_zero, List.append_nil]; exact hlook⟩
    | false =>
      simp only
      split
      · exact ⟨0, Nat.zero_le _, by rw [List.replicate_zero, List.append_nil]; exact hlook⟩
      · obtain ⟨looks, hle, heq⟩ := ih (H.traced.sleep pause t')
        refine ⟨looks + 1, Nat.succ_le_succ hle, heq.trans ?_⟩
        have hslept : (H.traced.sleep pause t').trace = t.trace ++ [.look pid false] := hlook
        rw [hslept, List.replicate_succ, List.append_assoc t.trace, List.singleton_append]

variable {H} {pid}

/-- A wait in vain has lasted until its deadline: there are enough pauses to get there. -/
theorem le_now_of_pollUntil (hH : H.KeepsTime) {deadline : Instant} {pause : Duration}
    {pauses : Nat} {h : η} (henough : deadline.nanos ≤ (H.now h).nanos + pauses * pause.nanos)
    (hvain : (pollUntil H pid deadline pause pauses h).1 = false) :
    deadline ≤ H.now (pollUntil H pid deadline pause pauses h).2 := by
  induction pauses generalizing h with
  | zero =>
    rw [Nat.zero_mul, Nat.add_zero] at henough
    exact Nat.le_trans henough (hH.reap pid h)
  | succ pauses ih =>
    have hreap : (H.now h).nanos ≤ (H.now (H.reap pid h).2).nanos := hH.reap pid h
    rw [pollUntil] at hvain ⊢
    generalize H.reap pid h = out at hreap hvain
    obtain ⟨gone, h'⟩ := out
    cases gone with
    | true => cases hvain
    | false =>
      simp only at hvain ⊢
      by_cases hover : deadline ≤ H.now h'
      · rw [if_pos hover]
        exact hover
      · rw [if_neg hover] at hvain ⊢
        refine ih ?_ hvain
        have hsleep : ((H.now h').later pause).nanos ≤ (H.now (H.sleep pause h')).nanos :=
          hH.sleep pause h'
        rw [Instant.later, Instant.add?, Instant.ofNanos?] at hsleep
        have hbounded := deadline.bounded
        rw [Nat.add_mul, Nat.one_mul] at henough
        split at hsleep
        · have hsleep' : (H.now h').nanos + pause.nanos ≤ (H.now (H.sleep pause h')).nanos := hsleep
          have hreap' : (H.now h).nanos ≤ (H.now h').nanos := hreap
          omega
        · have hsleep' : (1 <<< 63) * 1_000_000_000 - 1 ≤ (H.now (H.sleep pause h')).nanos := hsleep
          omega

end Escalation

namespace Kept

open Escalation

variable (config : Config)

/-- What comes of the last wait for a child that was killed. -/
theorem lastWait {killed : Traced η} (h : Kept H pid false killed.trace)
    (hshot : [.signal pid .kill true] <:+ killed.trace) {deadline : Instant}
    (hclock : (H.now killed.host).plus config.killTimeout = .ok deadline) :
    let pauses := config.killTimeout.nanos / config.pollPeriod.nanos + 2
    let out := pollUntil H.traced pid deadline config.pollPeriod pauses killed
    Farewell H pid config (.ok out.1) out.2 := by
  intro pauses out
  obtain ⟨looks, hle, htrace⟩ := pollUntil_traced H pid deadline config.pollPeriod pauses killed
  have hlooks := h.looks looks
  have henough : deadline.nanos ≤ (H.now killed.host).nanos + pauses * config.pollPeriod.nanos := by
    have hlong : config.killTimeout.nanos ≤ pauses * config.pollPeriod.nanos :=
      calc config.killTimeout.nanos
        _ ≤ config.pollPeriod.nanos * (config.killTimeout.nanos / config.pollPeriod.nanos + 1) :=
          Nat.le_of_lt (Nat.lt_mul_div_succ _ config.pollPeriod_pos)
        _ ≤ config.pollPeriod.nanos * pauses := Nat.mul_le_mul_left _ (Nat.le_succ _)
        _ = pauses * config.pollPeriod.nanos := Nat.mul_comm ..
    have hdeadline := Instant.nanos_of_plus hclock
    omega
  have hover (hH : H.KeepsTime) (hvain : out.1 = false) : deadline ≤ H.now out.2.host :=
    le_now_of_pollUntil (h := killed) hH.traced henough hvain
  change out.2.trace = _ ++ [.look pid out.1] at htrace
  generalize out.1 = gone at htrace hover ⊢
  cases gone with
  | true =>
    refine .gone ?_
    rw [htrace]
    exact .seen hlooks.meets
  | false =>
    refine .outlived ⟨h, hshot, ?_, hle, fun hH => ⟨deadline, hclock, hover hH rfl⟩⟩
    rw [htrace, List.append_assoc, ← List.replicate_succ']

/-- **A child that is given up** is gone, or has outlived being killed and one more wait. -/
theorem killAndReap {t : Traced η} (h : Kept H pid false t.trace) :
    Farewell H pid config
      (killAndReap H.traced pid config.killTimeout config.pollPeriod t).1
      (killAndReap H.traced pid config.killTimeout config.pollPeriod t).2 := by
  have hlook := h.reap
  rw [Escalation.killAndReap]
  split
  · next t₁ hout =>
    rw [hout] at hlook
    exact .gone hlook
  · next t₁ hout =>
    rw [hout] at hlook
    change Kept H pid false t₁.trace at hlook
    split
    · next t₂ hkill =>
      have hmiss := hlook.miss .kill (by rw [hkill])
      rw [hkill] at hmiss
      exact .gone hmiss
    · next t₂ hkill =>
      have hkilled := hlook.kill .kill (by rw [hkill])
      have hshot : (H.traced.kill pid .kill t₁).2.trace =
          t₁.trace ++ [.signal pid .kill (H.traced.kill pid .kill t₁).1] := rfl
      rw [hkill] at hkilled hshot
      split
      · next p hclock => exact .panics hkilled hclock
      · next deadline hclock => exact hkilled.lastWait config ⟨t₁.trace, hshot.symm⟩ hclock

end Kept

namespace Farewell

variable {config : Config} {result : Except Panic Bool} {last : Traced η}

theorem kept (h : Farewell H pid config result last) : ∃ reaped, Kept H pid reaped last.trace := by
  cases h with
  | gone h => exact ⟨true, h⟩
  | outlived h =>
    refine ⟨false, ?_⟩
    rw [h.trace_eq]
    exact h.kept.looks _
  | panics h _ => exact ⟨false, h⟩

end Farewell

namespace Supervisor

variable {s : Scene (Traced η) σ}

/-- Dropping a supervisor leaves a child alone that is known to be gone, or that there is not. -/
theorem drop_of_reaped (h : s.supervisor.life.pid? = none ∨ s.supervisor.life.reaped = true) :
    (drop H.traced s).1 = .ok () ∧ (drop H.traced s).2.host.trace = s.host.trace := by
  rw [drop, bind_run, get_run]
  cases hlife : s.supervisor.life with
  | notStarted => exact ⟨rfl, rfl⟩
  | started | stopped =>
    rw [hlife] at h
    obtain rfl : _ = true := h.resolve_left (Option.some_ne_none _)
    exact ⟨rfl, rfl⟩

/-- A child that is not known to be gone is killed when its supervisor is dropped. -/
theorem drop_of_unreaped (hpid : s.supervisor.life.pid? = some pid)
    (hreaped : s.supervisor.life.reaped = false) :
    ∃ t, t.trace = s.host.trace ∧
      let config := s.supervisor.config
      let out := Escalation.killAndReap H.traced pid config.killTimeout config.pollPeriod t
      (drop H.traced s).1 = out.1.map (fun _ => ()) ∧ (drop H.traced s).2.host = out.2 := by
  rw [drop, bind_run, get_run]
  cases hlife : s.supervisor.life with
  | notStarted =>
    rw [hlife] at hpid
    cases hpid
  | started pid' line channel reaped =>
    rw [hlife] at hpid hreaped
    cases hpid
    obtain rfl : reaped = false := hreaped
    exact ⟨H.traced.closeLine line s.host, rfl, rfl, rfl⟩
  | stopped pid' reaped =>
    rw [hlife] at hpid hreaped
    cases hpid
    obtain rfl : reaped = false := hreaped
    exact ⟨s.host, rfl, rfl, rfl⟩

end Supervisor

namespace Custody

open Supervisor

variable {config : Config} {s : Scene (Traced η) σ}

/-- Before there is a child nothing is on record. -/
theorem trace_eq_nil (h : Custody H config s) (hpid : s.supervisor.life.pid? = none) :
    s.host.trace = [] := by
  have hrecords := h.records
  cases hlife : s.supervisor.life with
  | notStarted =>
    rw [hlife] at hrecords
    exact hrecords
  | started | stopped =>
    rw [hlife] at hpid
    cases hpid

/-- What comes of dropping the supervisor of a child. -/
theorem farewell (h : Custody H config s) (hpid : s.supervisor.life.pid? = some pid) :
    let out := Supervisor.drop H.traced s
    (∃ reaped, Kept H pid reaped out.2.host.trace) ∧
    (∀ p, out.1 = .error p → (H.now out.2.host.host).plus config.killTimeout = .error p) ∧
    (out.1.isOk → H.Truthful →
      .look pid true ∈ out.2.host.trace ∨
        ∃ killed looks, Outlived H pid config killed out.2.host looks) := by
  intro out
  have hkept := h.kept hpid
  cases hreaped : s.supervisor.life.reaped with
  | true =>
    rw [hreaped] at hkept
    obtain ⟨hresult, htrace⟩ := drop_of_reaped (H := H) (.inr hreaped)
    rw [← htrace] at hkept
    refine ⟨⟨true, hkept⟩, fun p hp => ?_, fun _ hH => .inl (hkept.seen_gone hH)⟩
    cases hresult.symm.trans hp
  | false =>
    rw [hreaped] at hkept
    obtain ⟨t, ht, hresult, hhost⟩ := drop_of_unreaped (H := H) hpid hreaped
    rw [← ht] at hkept
    have hfarewell := hkept.killAndReap config
    rw [h.config_eq] at hresult hhost
    rw [← hhost] at hfarewell
    refine ⟨hfarewell.kept, fun p hp => ?_, fun hok hH => ?_⟩
    all_goals
      generalize (Escalation.killAndReap H.traced pid config.killTimeout config.pollPeriod t).1 =
        result at hresult hfarewell
    · cases hfarewell with
      | gone | outlived => cases hresult.symm.trans hp
      | panics _ hclock =>
        cases hresult.symm.trans hp
        exact hclock
    · cases hfarewell with
      | gone hgone => exact .inl (hgone.seen_gone hH)
      | outlived houtlived => exact .inr ⟨_, _, houtlived⟩
      | panics =>
        rw [hresult] at hok
        cases hok

/-- **No child is touched once it was seen to be gone, and none is left behind.** Whatever is done
with a supervisor until it is dropped, and whatever its child does: each look and each signal is for
that child, and none follows a look that has found it to be gone. Dropping the supervisor panics
only if the clock cannot show the end of the kill timeout. If it does not, and a child that cannot
be signalled is found to be gone, then a child that was started was seen to be gone at some time, or
it was killed in the end and was still there after one more wait, for as long as the kill timeout
says. -/
theorem gone_or_outlived (H : Host η) (server : Server σ) (state : σ) (config : Config)
    (now : Instant) (host : η) (ops : List (Operation (Traced η)))
    (hops : ∀ op ∈ ops, op.OffRecord H) :
    let s := Supervisor.performAll H.traced ops
      { supervisor := .ofServer server state config now, host := { host } }
    let out := drop H.traced s
    let trace := out.2.host.trace
    (∀ contact ∈ trace, s.supervisor.life.pid? = some contact.pid) ∧
    (∀ before pid after, trace = before ++ .look pid true :: after → after = []) ∧
    (∀ p, out.1 = .error p → (H.now out.2.host.host).plus config.killTimeout = .error p) ∧
    (out.1.isOk → H.Truthful → ∀ pid, s.supervisor.life.pid? = some pid →
      .look pid true ∈ trace ∨ ∃ killed looks, Outlived H pid config killed out.2.host looks) := by
  intro s out trace
  have hcustody : Custody H config s :=
    Custody.performAll (s := { supervisor := .ofServer server state config now, host := { host } })
      ⟨rfl, rfl⟩ ops hops
  cases hpid : s.supervisor.life.pid? with
  | none =>
    obtain ⟨hresult, htrace⟩ := drop_of_reaped (H := H) (.inl hpid)
    have hempty : trace = [] := htrace.trans (hcustody.trace_eq_nil hpid)
    rw [hempty]
    refine ⟨nofun, fun before _ after h => ?_, fun p h => ?_, fun _ _ _ h => nomatch h⟩
    · cases before <;> cases h
    · cases hresult.symm.trans h
  | some pid =>
    obtain ⟨⟨reaped, hkept⟩, hpanics, hleft⟩ := hcustody.farewell hpid
    refine ⟨fun c hc => ?_, fun _ _ _ h => hkept.nothing_after h, hpanics, fun hok hH pid' h => ?_⟩
    · rw [hkept.pid_eq c hc]
    · cases h
      exact hleft hok hH

/-- The host of a fate, with lines and a child to be had. -/
def nursery (fate : Fate) : Host Watch :=
  { fate.host with
    openLine := fun w => (.ok ⟨3, 4⟩, w)
    fork := fun _ _ w => (.ok 7, w) }

theorem nursery_truthful (fate : Fate) : (nursery fate).Truthful := by
  intro pid signal w hgone
  cases hreaped : w.reaped with
  | true => simp [nursery, Fate.host, hreaped]
  | false => simp [nursery, Fate.host, hreaped] at hgone

/-- Nothing is waited for. -/
def hasty : Config := { exitTimeout := .zero, termTimeout := .zero, killTimeout := .zero }

/-- A child that takes some time to go once it is killed, and is given none, has outlived its
supervisor: it is killed when it is stopped, and once more in the end. -/
theorem gone_or_outlived_without_waits :
    let H := nursery Chronicle.stubborn
    let s := Supervisor.performAll H.traced [.start, .stop, .isRunning]
      { supervisor := .ofServer { name := fun _ => "quiet" } () hasty .origin,
        host := { host := {} } }
    let out := drop H.traced s
    out.2.host.trace =
        [.look 7 false, .signal 7 .term true, .look 7 false, .signal 7 .kill true, .look 7 false,
          .look 7 false, .look 7 false, .signal 7 .kill true, .look 7 false] ∧
      ∃ killed looks, Outlived H 7 hasty killed out.2.host looks := by
  obtain ⟨-, -, -, hleft⟩ := gone_or_outlived (nursery Chronicle.stubborn)
    { name := fun _ => "quiet" } () hasty .origin {} [.start, .stop, .isRunning]
    (by simp [Operation.OffRecord])
  refine ⟨by decide +kernel, (hleft ?_ (nursery_truthful _) 7 ?_).resolve_left ?_⟩
  all_goals decide +kernel

end Custody

end Overseer
