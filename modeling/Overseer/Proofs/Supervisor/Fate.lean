import Overseer.Proofs.Supervisor.Escalation

/-!
# The tier in which a child is gone

When a child goes away is up to the child: to what it does when its channel is closed, and when it
is sent a signal. A `Fate` says when, for each record of the signals that it was sent and of the
times at which it was. A host keeps a `Chronicle` of the child if its waits take the time that they
are meant to take, it looks at the child and signals it in no time, and the child of that fate is
there to be signalled until the host has taken note of its end.

On such a host the fate alone decides in which tier the child is gone and which signals it is sent
(`tier_of_fate`). The pause between two looks plays no part, however long it is: a wait ends with a
look at its deadline.
-/

namespace Overseer

/-- The signals that a child was sent, each with the time at which it was, oldest first. -/
abbrev Record := List (Nat × Signal)

/-- When a child is gone, given the signals that it is sent, or that it stays for ever. Times are in
nanoseconds. -/
abbrev Fate := Record → Option Nat

/-- Whether a child that was sent these signals is gone by a time. -/
def Fate.GoneBy (fate : Fate) (sent : Record) (time : Nat) : Prop :=
  ∃ moment, fate sent = some moment ∧ moment ≤ time

instance (fate : Fate) (sent : Record) (time : Nat) : Decidable (fate.GoneBy sent time) :=
  decidable_of_iff ((fate sent).any fun moment => moment ≤ time) (by
    rw [Fate.GoneBy]
    cases fate sent <;> simp)

/-- A child that is gone stays so. -/
theorem Fate.GoneBy.mono {fate : Fate} {sent : Record} {time time' : Nat}
    (h : fate.GoneBy sent time) (hle : time ≤ time') : fate.GoneBy sent time' := by
  obtain ⟨moment, hmoment, hmoment_le⟩ := h
  exact ⟨moment, hmoment, Nat.le_trans hmoment_le hle⟩

/-- What a host with exact timers does with a child of some fate, as long as nobody else takes note
of the child's end. -/
structure Chronicle {η : Type} (H : Host η) (pid : Pid) (fate : Fate) where
  /-- The time that has passed. -/
  time : η → Nat
  /-- The signals that the child was sent. -/
  sent : η → Record
  /-- Whether the host has taken note of the child's end. -/
  reaped : η → Bool
  time_sleep (d : Duration) (h : η) : time (H.sleep d h) = time h + d.nanos
  sent_sleep (d : Duration) (h : η) : sent (H.sleep d h) = sent h
  reaped_sleep (d : Duration) (h : η) : reaped (H.sleep d h) = reaped h
  /-- A look finds whether the child is gone, and takes note of that. -/
  reap_fst (h : η) (hh : reaped h = false) :
    (H.reap pid h).1 = decide (fate.GoneBy (sent h) (time h))
  reaped_reap (h : η) (hh : reaped h = false) : reaped (H.reap pid h).2 = (H.reap pid h).1
  time_reap (h : η) : time (H.reap pid h).2 = time h
  sent_reap (h : η) : sent (H.reap pid h).2 = sent h
  /-- A child whose end nobody took note of can be signalled, even if it is gone. -/
  kill_fst (signal : Signal) (h : η) (hh : reaped h = false) : (H.kill pid signal h).1 = true
  sent_kill (signal : Signal) (h : η) (hh : reaped h = false) :
    sent (H.kill pid signal h).2 = sent h ++ [(time h, signal)]
  time_kill (signal : Signal) (h : η) : time (H.kill pid signal h).2 = time h
  reaped_kill (signal : Signal) (h : η) : reaped (H.kill pid signal h).2 = reaped h

namespace Chronicle

open Escalation

variable {η σ : Type} {H : Host η} {pid : Pid} {fate : Fate} (C : Chronicle H pid fate)

/-- The host has not taken note of the child's end, so much time has passed and these signals were
sent. -/
structure Stands (h : η) (time : Nat) (sent : Record) : Prop where
  reaped_eq : C.reaped h = false
  time_eq : C.time h = time
  sent_eq : C.sent h = sent

/-- What comes of a wait that starts at some time and is to end by a deadline. A wait that is not in
vain may be over before. -/
structure Waits (deadline : Nat) (sent : Record) (out : Bool × η) : Prop where
  gone_iff : out.1 = true ↔ fate.GoneBy sent deadline
  sent_eq : C.sent out.2 = sent
  time_le : C.time out.2 ≤ deadline
  stands : out.1 = false → C.Stands out.2 deadline sent

variable {C} {h : η} {time : Nat} {sent : Record}

theorem Stands.sleep (hs : C.Stands h time sent) (d : Duration) :
    C.Stands (H.sleep d h) (time + d.nanos) sent := by
  refine ⟨?_, ?_, ?_⟩
  · rw [C.reaped_sleep, hs.reaped_eq]
  · rw [C.time_sleep, hs.time_eq]
  · rw [C.sent_sleep, hs.sent_eq]

/-- A look is a wait that ends at once. -/
theorem Stands.reap (hs : C.Stands h time sent) : C.Waits time sent (H.reap pid h) := by
  have hgone : (H.reap pid h).1 = decide (fate.GoneBy sent time) := by
    rw [C.reap_fst h hs.reaped_eq, hs.sent_eq, hs.time_eq]
  have htime : C.time (H.reap pid h).2 = time := by rw [C.time_reap, hs.time_eq]
  have hsent : C.sent (H.reap pid h).2 = sent := by rw [C.sent_reap, hs.sent_eq]
  refine ⟨?_, hsent, Nat.le_of_eq htime, fun hnot => ⟨?_, htime, hsent⟩⟩
  · rw [hgone, decide_eq_true_eq]
  · rw [C.reaped_reap h hs.reaped_eq, hnot]

/-- A wait in vain has not missed the child. -/
theorem Waits.not_goneBy {deadline : Nat} {h : η} (hw : C.Waits deadline sent (false, h)) :
    ¬ fate.GoneBy sent deadline :=
  fun hgone => Bool.false_ne_true (hw.gone_iff.2 hgone)

/-- What is found before a deadline is found by the deadline. -/
theorem Waits.later {deadline deadline' : Nat} {out : Bool × η} (hw : C.Waits deadline sent out)
    (hgone : out.1 = true) (hle : deadline ≤ deadline') : C.Waits deadline' sent out := by
  refine ⟨?_, hw.sent_eq, Nat.le_trans hw.time_le hle, fun hnot => ?_⟩
  · exact iff_of_true hgone ((hw.gone_iff.1 hgone).mono hle)
  · rw [hgone] at hnot
    cases hnot

/-- The pauses of a wait add up to its length: each look but the last is followed by a whole pause,
and the last one is at the deadline. -/
theorem Stands.pollHost {pause : Duration} {pauses rest : Nat} (hs : C.Stands h time sent)
    (hpauses : rest < pauses * pause.nanos) (hrest : rest < (1 <<< 64) * 1_000_000_000) :
    C.Waits (time + rest) sent (pollHost H pid pause pauses rest h) := by
  induction pauses generalizing rest time h with
  | zero => omega
  | succ pauses ih =>
    rw [Escalation.pollHost]
    split
    · have hnanos : (Duration.ofNanos rest).nanos = rest := by
        rw [Duration.ofNanos, Duration.ofNanos?, dif_pos hrest]
        rfl
      have hslept := hs.sleep (.ofNanos rest)
      rw [hnanos] at hslept
      exact hslept.reap
    · next hpause =>
      have hlook := (hs.sleep pause).reap
      generalize H.reap pid (H.sleep pause h) = out at hlook
      obtain ⟨gone, h'⟩ := out
      cases gone with
      | true => exact hlook.later rfl (by omega)
      | false =>
        have hpauses' : rest - pause.nanos < pauses * pause.nanos := by
          rw [Nat.add_mul] at hpauses
          omega
        have hwait := ih (hlook.stands rfl) hpauses' (by omega)
        rwa [show time + pause.nanos + (rest - pause.nanos) = time + rest by omega] at hwait

/-- **A wait finds a child that is gone by its deadline**, whatever the pause between two looks. -/
theorem Stands.waitHost (hs : C.Stands h time sent) (timeout : Duration) {pause : Duration}
    (hpause : 0 < pause.nanos) :
    C.Waits (time + timeout.nanos) sent (waitHost H pid timeout pause h) := by
  have hlook := hs.reap
  rw [Escalation.waitHost]
  generalize H.reap pid h = out at hlook
  obtain ⟨gone, h'⟩ := out
  cases gone with
  | true => exact hlook.later rfl (Nat.le_add_right ..)
  | false =>
    by_cases hzero : timeout = .zero
    · simp only [if_pos hzero]
      rw [hzero]
      exact hlook
    · simp only [if_neg hzero]
      refine (hlook.stands rfl).pollHost ?_ timeout.bounded
      rw [Nat.mul_comm]
      exact Nat.lt_mul_div_succ _ hpause

end Chronicle

/-! ## What a fate comes to -/

/-- The longest pause between two looks is not empty. -/
theorem Config.pollPeriod_pos (config : Config) : 0 < config.pollPeriod.nanos := by
  have hmilli : (Duration.ofMillis 1).nanos = 1_000_000 := by decide
  rw [pollPeriod, Duration.max]
  split
  · rw [hmilli]
    decide
  · next hle =>
    have hlt : ¬ config.reapInterval.nanos ≤ (Duration.ofMillis 1).nanos := hle
    omega

namespace Fate

open Escalation

variable (fate : Fate) (config : Config)

/-- How far the escalation of a child goes that is killed at some time, and the signals it was sent
then. -/
def killed (time : Nat) (sent : Record) : Ladder × Record :=
  let shot := sent ++ [(time, .kill)]
  (if fate.GoneBy shot (time + config.killTimeout.nanos) then .killed else .survived, shot)

/-- The same of a child that is asked to stop at some time. -/
def asked (time : Nat) (sent : Record) : Ladder × Record :=
  let warned := sent ++ [(time, config.terminationSignal)]
  let deadline := time + config.termTimeout.nanos
  if fate.GoneBy warned deadline then (.terminated, warned) else fate.killed config deadline warned

/-- The same of a child whose channel is closed at some time. -/
def stopped (time : Nat) (sent : Record) : Ladder × Record :=
  let deadline := time + config.exitTimeout.nanos
  if fate.GoneBy sent deadline then (.closed, sent) else fate.asked config deadline sent

/-- What a fate comes to, tier by tier. -/
theorem stopped_cases (start : Nat) (before : Record) :
    let asked := start + config.exitTimeout.nanos
    let killed := asked + config.termTimeout.nanos
    let deadline := killed + config.killTimeout.nanos
    let warned := before ++ [(asked, config.terminationSignal)]
    let shot := warned ++ [(killed, .kill)]
    let out := fate.stopped config start before
    (out.1.outcome.tier = .closed ↔ fate.GoneBy before asked) ∧
    (fate.GoneBy before asked → out.2 = before ∧ out.1.outcome.reaped = true) ∧
    (¬ fate.GoneBy before asked →
      (out.1.outcome.tier = .terminated ↔ fate.GoneBy warned killed) ∧
      (fate.GoneBy warned killed → out.2 = warned ∧ out.1.outcome.reaped = true) ∧
      (¬ fate.GoneBy warned killed →
        out.1.outcome.tier = .killed ∧ out.2 = shot ∧
          (out.1.outcome.reaped = true ↔ fate.GoneBy shot deadline))) := by
  intro asked killed deadline warned shot out
  have hout : out =
      if fate.GoneBy before asked then (.closed, before)
      else if fate.GoneBy warned killed then (.terminated, warned)
      else (if fate.GoneBy shot deadline then .killed else .survived, shot) := rfl
  rw [hout]
  by_cases hclosed : fate.GoneBy before asked
  · simp [hclosed, Ladder.outcome]
  · by_cases hterminated : fate.GoneBy warned killed
    · simp [hclosed, hterminated, Ladder.outcome]
    · by_cases hkilled : fate.GoneBy shot deadline <;>
        simp [hclosed, hterminated, hkilled, Ladder.outcome]

end Fate

namespace Chronicle

open Escalation

variable {η σ : Type} {H : Host η} {pid : Pid} {fate : Fate} (C : Chronicle H pid fate)

/-- A host comes to what a fate comes to, no later than by a deadline. -/
structure Meets (deadline : Nat) (expected : Ladder × Record) (out : Ladder × η) : Prop where
  ladder_eq : out.1 = expected.1
  sent_eq : C.sent out.2 = expected.2
  time_le : C.time out.2 ≤ deadline

variable {C} {config : Config} {h : η} {time : Nat} {sent : Record}

theorem Stands.kill (hs : C.Stands h time sent) (signal : Signal) :
    (H.kill pid signal h).1 = true ∧
      C.Stands (H.kill pid signal h).2 time (sent ++ [(time, signal)]) := by
  refine ⟨C.kill_fst signal h hs.reaped_eq, ?_, ?_, ?_⟩
  · rw [C.reaped_kill, hs.reaped_eq]
  · rw [C.time_kill, hs.time_eq]
  · rw [C.sent_kill signal h hs.reaped_eq, hs.sent_eq, hs.time_eq]

theorem Stands.killHost (hs : C.Stands h time sent) :
    C.Meets (time + config.killTimeout.nanos) (fate.killed config time sent)
      (killHost H pid config h) := by
  obtain ⟨hsent, hshot⟩ := hs.kill .kill
  rw [Escalation.killHost]
  generalize H.kill pid .kill h = answer at hsent hshot
  obtain ⟨there, h₁⟩ := answer
  obtain rfl : there = true := hsent
  have hwait := hshot.waitHost config.killTimeout config.pollPeriod_pos
  simp only
  generalize Escalation.waitHost H pid config.killTimeout config.pollPeriod h₁ = out at hwait
  obtain ⟨gone, h₂⟩ := out
  cases gone with
  | true => exact ⟨(if_pos (hwait.gone_iff.1 rfl)).symm, hwait.sent_eq, hwait.time_le⟩
  | false =>
    exact ⟨(if_neg hwait.not_goneBy).symm, hwait.sent_eq, hwait.time_le⟩

theorem Stands.terminateHost (hs : C.Stands h time sent) :
    C.Meets (time + config.termTimeout.nanos + config.killTimeout.nanos)
      (fate.asked config time sent) (terminateHost H pid config h) := by
  obtain ⟨hsent, hwarned⟩ := hs.kill config.terminationSignal
  rw [Escalation.terminateHost]
  generalize H.kill pid config.terminationSignal h = answer at hsent hwarned
  obtain ⟨there, h₁⟩ := answer
  obtain rfl : there = true := hsent
  have hwait := hwarned.waitHost config.termTimeout config.pollPeriod_pos
  simp only
  generalize Escalation.waitHost H pid config.termTimeout config.pollPeriod h₁ = out at hwait
  obtain ⟨gone, h₂⟩ := out
  rw [Fate.asked]
  cases gone with
  | true =>
    rw [if_pos (hwait.gone_iff.1 rfl)]
    exact ⟨rfl, hwait.sent_eq, Nat.le_trans hwait.time_le (Nat.le_add_right ..)⟩
  | false =>
    rw [if_neg hwait.not_goneBy]
    exact (hwait.stands rfl).killHost

/-- **A host comes to what the fate of the child comes to.** -/
theorem Stands.escalateHost (hs : C.Stands h time sent) :
    C.Meets (time + config.exitTimeout.nanos + config.termTimeout.nanos + config.killTimeout.nanos)
      (fate.stopped config time sent) (escalateHost H pid config h) := by
  have hwait := hs.waitHost config.exitTimeout config.pollPeriod_pos
  rw [Escalation.escalateHost]
  generalize Escalation.waitHost H pid config.exitTimeout config.pollPeriod h = out at hwait
  obtain ⟨gone, h₁⟩ := out
  rw [Fate.stopped]
  cases gone with
  | true =>
    rw [if_pos (hwait.gone_iff.1 rfl)]
    refine ⟨rfl, hwait.sent_eq, Nat.le_trans hwait.time_le ?_⟩
    rw [Nat.add_assoc]
    exact Nat.le_add_right ..
  | false =>
    rw [if_neg hwait.not_goneBy]
    exact (hwait.stands rfl).terminateHost

/-- An escalation comes to what the fate of the child comes to. -/
theorem escalate_of_fate (config : Config) (s : Scene η σ) (hs : C.reaped s.host = false) :
    ((escalate H pid config).alone H s).1 =
        (fate.stopped config (C.time s.host) (C.sent s.host)).1.outcome ∧
      C.sent ((escalate H pid config).alone H s).2.host =
        (fate.stopped config (C.time s.host) (C.sent s.host)).2 ∧
      C.time ((escalate H pid config).alone H s).2.host ≤
        C.time s.host + config.exitTimeout.nanos + config.termTimeout.nanos +
          config.killTimeout.nanos := by
  have hstands : C.Stands s.host (C.time s.host) (C.sent s.host) := ⟨hs, rfl, rfl⟩
  have hmeets : C.Meets _ _ (escalateHost H pid config s.host) := hstands.escalateHost
  rw [escalate_alone]
  exact ⟨congrArg Ladder.outcome hmeets.ladder_eq, hmeets.sent_eq, hmeets.time_le⟩

/-- **The fate of a child decides in which tier it is gone**, and so which signals it is sent. It is
`closed` exactly if the child is gone no later than the exit timeout after the start, and then it is
sent no signal; else the child is asked to stop at that moment. Then it is `terminated` exactly if
the child is gone no later than the termination timeout after that, and it is sent nothing more;
else it is killed at that moment, and seen to be gone exactly if it is gone no later than the kill
timeout after that. The waits add up to no more than the three timeouts. Another pause between two
looks changes neither what comes of it nor the signals. -/
theorem tier_of_fate (config : Config) (s : Scene η σ) (hs : C.reaped s.host = false) :
    let asked := C.time s.host + config.exitTimeout.nanos
    let killed := asked + config.termTimeout.nanos
    let deadline := killed + config.killTimeout.nanos
    let before := C.sent s.host
    let warned := before ++ [(asked, config.terminationSignal)]
    let shot := warned ++ [(killed, .kill)]
    let out := (escalate H pid config).alone H s
    (out.1.tier = .closed ↔ fate.GoneBy before asked) ∧
    (fate.GoneBy before asked → C.sent out.2.host = before ∧ out.1.reaped = true) ∧
    (¬ fate.GoneBy before asked →
      (out.1.tier = .terminated ↔ fate.GoneBy warned killed) ∧
      (fate.GoneBy warned killed → C.sent out.2.host = warned ∧ out.1.reaped = true) ∧
      (¬ fate.GoneBy warned killed →
        out.1.tier = .killed ∧ C.sent out.2.host = shot ∧
          (out.1.reaped = true ↔ fate.GoneBy shot deadline))) ∧
    C.time out.2.host ≤ deadline ∧
    ∀ interval : Duration,
      let out' := (escalate H pid { config with reapInterval := interval }).alone H s
      out'.1 = out.1 ∧ C.sent out'.2.host = C.sent out.2.host := by
  intro asked killed deadline before warned shot out
  obtain ⟨hout, hsent, htime⟩ := escalate_of_fate config s hs
  obtain ⟨hclosed, hcalm, hrest⟩ := fate.stopped_cases config (C.time s.host) before
  rw [← hout, ← hsent] at hcalm hrest
  rw [← hout] at hclosed
  refine ⟨hclosed, hcalm, hrest, htime, fun interval => ?_⟩
  -- what the fate comes to does not depend on the pause
  obtain ⟨hout', hsent', -⟩ := escalate_of_fate { config with reapInterval := interval } s hs
  exact ⟨hout'.trans hout.symm, hsent'.trans hsent.symm⟩

end Chronicle

/-! ## Every fate has its host -/

/-- What counts of a parent that has one child: the time, the signals it has sent, and whether it
has taken note of the child's end. -/
structure Watch where
  time : Nat := 0
  sent : Record := []
  reaped : Bool := false

/-- A host with exact timers and one child, of a given fate. -/
def Fate.host (fate : Fate) : Host Watch where
  now w := Instant.origin.later (.ofNanos w.time)
  sleep d w := { w with time := w.time + d.nanos }
  openLine w := (.error .tooManyOpen, w)
  dropLine _ w := w
  fork _ _ w := (.error ⟨11⟩, w)
  transport _ :=
    { carriesDescriptors := false
      write := fun w _ _ => (.error .brokenPipe, w)
      read := fun w _ => (some .atEnd, w)
      inflow := fun _ => 0
      stalls := fun _ => 0 }
  closeLine _ w := w
  reap _ w :=
    let gone := w.reaped || decide (fate.GoneBy w.sent w.time)
    (gone, { w with reaped := gone })
  kill _ signal w :=
    if w.reaped then (false, w) else (true, { w with sent := w.sent ++ [(w.time, signal)] })

/-- The host of a fate keeps a chronicle of it. -/
def Fate.chronicle (fate : Fate) (pid : Pid) : Chronicle fate.host pid fate where
  time := Watch.time
  sent := Watch.sent
  reaped := Watch.reaped
  time_sleep _ _ := rfl
  sent_sleep _ _ := rfl
  reaped_sleep _ _ := rfl
  reap_fst w hw := by simp [host, hw]
  reaped_reap w hw := rfl
  time_reap _ := rfl
  sent_reap _ := rfl
  kill_fst signal w hw := by simp [host, hw]
  sent_kill signal w hw := by simp [host, hw]
  time_kill signal w := by
    simp only [host]
    split <;> rfl
  reaped_kill signal w := by
    simp only [host]
    split <;> rfl

namespace Chronicle

open Escalation

/-- A child that takes 4 ms to go once it is killed, and nothing else makes it go. -/
def stubborn : Fate := fun sent =>
  (sent.find? fun entry => entry.2 = .kill).map fun entry => entry.1 + 4000000

/-- It is asked to stop at once, killed 5 ms later, and has 4 ms to go. Looks are 10 ms apart. -/
def hurried : Config :=
  { exitTimeout := .zero, termTimeout := .ofMillis 5, killTimeout := .ofMillis 4 }

/-- A supervisor of a server that does nothing, on the child's host. -/
def stage : Scene Watch Unit :=
  { supervisor := .ofServer { name := fun _ => "quiet" } () hurried .origin, host := {} }

/-- A child that is gone just at the deadline, between two looks, is seen to be gone. -/
theorem tier_of_fate_at_the_deadline :
    ((escalate stubborn.host 7 hurried).alone stubborn.host stage).1 = ⟨.killed, true⟩ := by
  obtain ⟨-, -, hrest, -⟩ := tier_of_fate (C := stubborn.chronicle 7) hurried stage rfl
  obtain ⟨-, -, hrest⟩ := hrest (by decide)
  obtain ⟨htier, -, hreaped⟩ := hrest (by decide)
  have hgone := hreaped.2 (by decide)
  generalize ((escalate stubborn.host 7 hurried).alone stubborn.host stage).1 = out at htier hgone ⊢
  obtain ⟨tier, reaped⟩ := out
  cases htier
  cases hgone
  rfl

end Chronicle

end Overseer
