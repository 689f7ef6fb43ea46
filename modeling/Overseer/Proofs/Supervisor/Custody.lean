import Overseer.Proofs.Supervisor.Contact
import Overseer.Proofs.Supervisor.Lifecycle

/-!
# No child is touched once it is gone

The number of a child that was taken note of may be given to another process at any time, so a
supervisor must not look at it again, let alone signal it. `Kept` is what the record of a host's
contacts says as long as that is observed: while the supervisor has its child down as not reaped,
the child was there at every contact, and once it has it down as reaped, the last contact has shown
that it is gone. Every operation keeps to this (`Custody.perform`), on every host, so whatever the
child does.
-/

namespace Overseer

variable {η σ : Type} {H : Host η} {pid : Pid}

/-- A child that cannot be signalled any more is gone, and a look at it says so. -/
def Host.Truthful (H : Host η) : Prop :=
  ∀ pid signal h, (H.kill pid signal h).1 = false → (H.reap pid (H.kill pid signal h).2).1 = true

/-- A contact with a child that was there. -/
inductive Contact.Meets (pid : Pid) : Contact → Prop
  | look : Meets pid (.look pid false)
  | signal (signal : Signal) : Meets pid (.signal pid signal true)

/-- What is on record of a child, depending on whether it is down as reaped. -/
inductive Kept (H : Host η) (pid : Pid) : Bool → List Contact → Prop
  /-- It was there all the time. -/
  | there {trace : List Contact} (h : ∀ c ∈ trace, c.Meets pid) : Kept H pid false trace
  /-- A look has found it to be gone. -/
  | seen {before : List Contact} (h : ∀ c ∈ before, c.Meets pid) :
      Kept H pid true (before ++ [.look pid true])
  /-- It was not there to be sent a signal, and was looked at once after that. -/
  | missed {before : List Contact} (h : ∀ c ∈ before, c.Meets pid) (signal : Signal) (gone : Bool)
      (hgone : H.Truthful → gone = true) :
      Kept H pid true (before ++ [.signal pid signal false, .look pid gone])

namespace Kept

open Escalation

variable {t : Traced η}

theorem meets {trace : List Contact} (h : Kept H pid false trace) : ∀ c ∈ trace, c.Meets pid := by
  cases h with
  | there h => exact h

/-- One more contact with a child that was there. -/
theorem snoc {trace : List Contact} (h : Kept H pid false trace) {c : Contact} (hc : c.Meets pid) :
    Kept H pid false (trace ++ [c]) := by
  refine .there fun c' hc' => ?_
  rcases List.mem_append.1 hc' with hmem | hmem
  · exact h.meets c' hmem
  · rwa [List.mem_singleton.1 hmem]

/-- Some more looks at a child that was there. -/
theorem looks {trace : List Contact} (h : Kept H pid false trace) (looks : Nat) :
    Kept H pid false (trace ++ List.replicate looks (.look pid false)) := by
  refine .there fun c hc => ?_
  rcases List.mem_append.1 hc with hmem | hmem
  · exact h.meets c hmem
  · rw [List.eq_of_mem_replicate hmem]
    exact .look

/-- All contacts are with the child. -/
theorem pid_eq {reaped : Bool} {trace : List Contact} (h : Kept H pid reaped trace) :
    ∀ c ∈ trace, c.pid = pid := by
  have hmeets : ∀ c : Contact, c.Meets pid → c.pid = pid := by
    intro c hc
    cases hc <;> rfl
  intro c hc
  cases h with
  | there h => exact hmeets c (h c hc)
  | seen h | missed h =>
    rcases List.mem_append.1 hc with hmem | hmem
    · exact hmeets c (h c hmem)
    · simp only [List.mem_cons, List.not_mem_nil, or_false] at hmem
      rcases hmem with rfl | rfl <;> rfl

/-- What stands in a list, but not before its last entry, has nothing after it. -/
theorem nil_of_not_mem {α : Type} {c last : α} {xs before after : List α} (hnot : c ∉ xs)
    (h : xs ++ [last] = before ++ c :: after) : after = [] := by
  rcases List.eq_nil_or_concat after with rfl | ⟨init, c', rfl⟩
  · rfl
  · rw [List.concat_eq_append, ← List.cons_append, ← List.append_assoc] at h
    refine absurd ?_ hnot
    rw [(List.append_inj' h rfl).1]
    simp

/-- Nothing is on record after a look that has found the child to be gone. -/
theorem nothing_after {reaped : Bool} {trace before after : List Contact} {pid' : Pid}
    (h : Kept H pid reaped trace) (htrace : trace = before ++ .look pid' true :: after) :
    after = [] := by
  have hnot : ∀ {xs : List Contact}, (∀ c ∈ xs, c.Meets pid) → .look pid' true ∉ xs :=
    fun hxs hmem => nomatch hxs _ hmem
  cases h with
  | there h =>
    subst htrace
    exact absurd (by simp) (hnot h)
  | seen h => exact nil_of_not_mem (hnot h) htrace
  | @missed xs h signal gone =>
    rw [List.append_cons] at htrace
    refine nil_of_not_mem (fun hmem => ?_) htrace
    rcases List.mem_append.1 hmem with hmem | hmem
    · exact hnot h hmem
    · cases List.mem_singleton.1 hmem

/-- A child that is down as reaped was seen to be gone. -/
theorem seen_gone {trace : List Contact} (h : Kept H pid true trace) (hH : H.Truthful) :
    Contact.look pid true ∈ trace := by
  cases h with
  | seen => simp
  | missed _ signal gone hgone => simp [hgone hH]

/-! ### What an escalation keeps -/

/-- A look tells whether the child may still be touched. -/
theorem reap (h : Kept H pid false t.trace) :
    Kept H pid (H.traced.reap pid t).1 (H.traced.reap pid t).2.trace := by
  show Kept H pid (H.reap pid t.host).1 (t.trace ++ [.look pid (H.reap pid t.host).1])
  cases (H.reap pid t.host).1 with
  | true => exact .seen h.meets
  | false => exact h.snoc .look

theorem kill (h : Kept H pid false t.trace) (signal : Signal)
    (hthere : (H.traced.kill pid signal t).1 = true) :
    Kept H pid false (H.traced.kill pid signal t).2.trace := by
  have hthere' : (H.kill pid signal t.host).1 = true := hthere
  show Kept H pid false (t.trace ++ [.signal pid signal (H.kill pid signal t.host).1])
  rw [hthere']
  exact h.snoc (.signal signal)

/-- A child that cannot be signalled is looked at once more, and left alone. -/
theorem miss (h : Kept H pid false t.trace) (signal : Signal)
    (hgone : (H.traced.kill pid signal t).1 = false) :
    Kept H pid true (H.traced.reap pid (H.traced.kill pid signal t).2).2.trace := by
  have hgone' : (H.kill pid signal t.host).1 = false := hgone
  show Kept H pid true (t.trace ++ [.signal pid signal (H.kill pid signal t.host).1] ++
    [.look pid (H.reap pid (H.kill pid signal t.host).2).1])
  rw [hgone', List.append_assoc]
  exact .missed h.meets signal _ fun hH => hH pid signal t.host hgone'

theorem pollHost (h : Kept H pid false t.trace) (pause : Duration) (pauses rest : Nat) :
    Kept H pid (pollHost H.traced pid pause pauses rest t).1
      (pollHost H.traced pid pause pauses rest t).2.trace := by
  induction pauses generalizing rest t with
  | zero => exact h.reap
  | succ pauses ih =>
    rw [Escalation.pollHost]
    split
    · exact Kept.reap (t := H.traced.sleep (.ofNanos rest) t) h
    · have hlook := Kept.reap (t := H.traced.sleep pause t) h
      split
      · next t' hout =>
        rw [hout] at hlook
        exact hlook
      · next t' hout =>
        rw [hout] at hlook
        exact ih hlook _

theorem waitHost (h : Kept H pid false t.trace) (timeout pause : Duration) :
    Kept H pid (waitHost H.traced pid timeout pause t).1
      (waitHost H.traced pid timeout pause t).2.trace := by
  have hlook := h.reap
  rw [Escalation.waitHost]
  split
  · next t' hout =>
    rw [hout] at hlook
    exact hlook
  · next t' hout =>
    rw [hout] at hlook
    split
    · exact hlook
    · exact hlook.pollHost _ _ _

variable (config : Config)

theorem killHost (h : Kept H pid false t.trace) :
    Kept H pid (killHost H.traced pid config t).1.outcome.reaped
      (killHost H.traced pid config t).2.trace := by
  rw [Escalation.killHost]
  split
  · next t' hkill =>
    have hmiss := h.miss .kill (by rw [hkill])
    rw [hkill] at hmiss
    exact hmiss
  · next t' hkill =>
    have hshot := h.kill .kill (by rw [hkill])
    rw [hkill] at hshot
    have hwait := hshot.waitHost config.killTimeout config.pollPeriod
    split
    all_goals
      next t'' hout =>
      rw [hout] at hwait
      exact hwait

theorem terminateHost (h : Kept H pid false t.trace) :
    Kept H pid (terminateHost H.traced pid config t).1.outcome.reaped
      (terminateHost H.traced pid config t).2.trace := by
  rw [Escalation.terminateHost]
  split
  · next t' hkill =>
    have hmiss := h.miss config.terminationSignal (by rw [hkill])
    rw [hkill] at hmiss
    exact hmiss
  · next t' hkill =>
    have hasked := h.kill config.terminationSignal (by rw [hkill])
    rw [hkill] at hasked
    have hwait := hasked.waitHost config.termTimeout config.pollPeriod
    split
    · next t'' hout =>
      rw [hout] at hwait
      exact hwait
    · next t'' hout =>
      rw [hout] at hwait
      exact hwait.killHost config

/-- **An escalation touches the child as long as it is there, and reports it as reaped only if it
is not.** -/
theorem escalateHost (h : Kept H pid false t.trace) :
    Kept H pid (escalateHost H.traced pid config t).1.outcome.reaped
      (escalateHost H.traced pid config t).2.trace := by
  have hwait := h.waitHost config.exitTimeout config.pollPeriod
  rw [Escalation.escalateHost]
  split
  · next t' hout =>
    rw [hout] at hwait
    exact hwait
  · next t' hout =>
    rw [hout] at hwait
    exact hwait.terminateHost config

theorem stopHost {reaped : Bool} (h : Kept H pid reaped t.trace) :
    Kept H pid (Supervisor.stopHost H.traced pid config reaped t).1.outcome.reaped
      (Supervisor.stopHost H.traced pid config reaped t).2.trace := by
  cases reaped with
  | true => exact h
  | false => exact h.escalateHost config

end Kept

/-! ## Operations -/

open Supervisor in
/-- An operation goes on record by itself only: what the channel is used for is no contact. -/
def Supervisor.Operation.OffRecord (H : Host η) : Operation (Traced η) → Prop
  | .useChannel use => ∀ line c t, (use (H.transport line).traced c t).2.trace = t.trace
  | _ => True

/-- What is on record of the child at a stage of its supervisor's life. Before there is a child,
nothing is. -/
def Life.Records (H : Host η) (trace : List Contact) : Life → Prop
  | .notStarted => trace = []
  | .started pid _ _ reaped | .stopped pid reaped => Kept H pid reaped trace

/-- A supervisor with these settings has kept to what is on record of its child. -/
structure Custody (H : Host η) (config : Config) (s : Scene (Traced η) σ) : Prop where
  config_eq : s.supervisor.config = config
  records : s.supervisor.life.Records H s.host.trace

namespace Custody

open Supervisor

variable {config : Config} {s : Scene (Traced η) σ}

theorem kept (h : Custody H config s) (hpid : s.supervisor.life.pid? = some pid) :
    Kept H pid s.supervisor.life.reaped s.host.trace := by
  have hrecords := h.records
  cases hlife : s.supervisor.life with
  | notStarted =>
    rw [hlife] at hpid
    cases hpid
  | started | stopped =>
    rw [hlife] at hpid hrecords
    cases hpid
    exact hrecords

theorem start (h : Custody H config s) :
    ((Supervisor.start H.traced s).2.supervisor.life).Records H
      (Supervisor.start H.traced s).2.host.trace := by
  by_cases hlife : s.supervisor.life = .notStarted
  · have htrace : s.host.trace = [] := by
      have hrecords := h.records
      rw [hlife] at hrecords
      exact hrecords
    rw [Supervisor.start, bind_run, get_run, hlife]
    simp only [bind_run, Supervisor.announce_run, onHost_run]
    cases hline : (H.traced.openLine s.host).1 with
    | error e =>
      show Life.Records H s.host.trace s.supervisor.life
      rw [hlife]
      exact htrace
    | ok line =>
      simp only [bind_run, prepareFork_run]
      cases (s.supervisor.server.beforeFork {} s.supervisor.state).1 with
      | error e =>
        show Life.Records H s.host.trace s.supervisor.life
        rw [hlife]
        exact htrace
      | ok keep =>
        simp only [forkOn, bind_run, get_run, onHost_run]
        generalize hfork : H.traced.fork line _ _ = out
        obtain ⟨pid, t⟩ := out
        have ht : t.trace = s.host.trace := by
          have heq : _ = t := congrArg Prod.snd hfork
          rw [← heq]
          rfl
        cases pid with
        | error e =>
          show Life.Records H t.trace s.supervisor.life
          rw [hlife, ht]
          exact htrace
        | ok pid =>
          show Kept H pid false t.trace
          rw [ht, htrace]
          exact .there (List.forall_mem_nil _)
  · rw [start_of_born H.traced hlife]
    exact h.records

theorem stop (h : Custody H config s) :
    (((Supervisor.stop H.traced).alone H.traced s).2.supervisor.life).Records H
      ((Supervisor.stop H.traced).alone H.traced s).2.host.trace := by
  have hrecords := h.records
  cases hlife : s.supervisor.life with
  | notStarted | stopped =>
    rw [stop_of_closed H.traced (by rw [hlife]; rfl)]
    exact hrecords
  | started pid line channel reaped =>
    rw [hlife] at hrecords
    rw [stop_of_started H.traced hlife]
    exact Kept.stopHost (t := H.traced.closeLine line s.host) _ hrecords

theorem isRunning (h : Custody H config s) :
    ((Supervisor.isRunning H.traced s).2.supervisor.life).Records H
      (Supervisor.isRunning H.traced s).2.host.trace := by
  by_cases hknown : s.supervisor.life.pid? = none ∨ s.supervisor.life.reaped = true
  · rw [isRunning_of_reaped H.traced hknown]
    exact h.records
  · rw [not_or, Bool.not_eq_true] at hknown
    obtain ⟨hpid, hreaped⟩ := hknown
    obtain ⟨pid, hpid⟩ := Option.ne_none_iff_exists'.1 hpid
    have hkept := h.kept hpid
    rw [hreaped] at hkept
    have hlook := hkept.reap
    rw [isRunning_of_unreaped H.traced hpid hreaped]
    -- what the look has found is noted, at the stage of life where the supervisor is
    split
    · next hgone =>
      rw [hgone] at hlook
      show Life.Records H (H.traced.reap pid s.host).2.trace s.supervisor.life.reap
      cases hlife : s.supervisor.life with
      | notStarted =>
        rw [hlife] at hpid
        cases hpid
      | started | stopped =>
        rw [hlife] at hpid
        cases hpid
        exact hlook
    · next hthere =>
      rw [Bool.eq_false_iff.2 hthere] at hlook
      show Life.Records H (H.traced.reap pid s.host).2.trace s.supervisor.life
      cases hlife : s.supervisor.life with
      | notStarted =>
        rw [hlife] at hpid
        cases hpid
      | started | stopped =>
        rw [hlife] at hpid hreaped
        cases hpid
        cases hreaped
        exact hlook

/-- A use of the channel that is off the record. -/
theorem onChannel {α : Type} (h : Custody H config s)
    (f : Transport (Traced η) → Channel → Traced η → α × Channel × Traced η)
    (hf : ∀ line c t, (f (H.transport line).traced c t).2.2.trace = t.trace) :
    ((Supervisor.onChannel H.traced f s).2.supervisor.life).Records H
      (Supervisor.onChannel H.traced f s).2.host.trace := by
  have hrecords := h.records
  cases hlife : s.supervisor.life with
  | notStarted | stopped =>
    rw [onChannel_of_closed H.traced f (by rw [hlife]; rfl)]
    exact hrecords
  | started pid line channel reaped =>
    rw [hlife] at hrecords
    rw [Supervisor.onChannel, bind_run, get_run, hlife]
    show Kept H pid reaped (f (H.transport line).traced channel s.host).2.2.trace
    rw [hf line channel s.host]
    exact hrecords

theorem request (h : Custody H config s) (m : Message) :
    ((Supervisor.request H.traced m s).2.supervisor.life).Records H
      (Supervisor.request H.traced m s).2.host.trace := by
  rw [Supervisor.request, bind_run, touch_run, bind_run, get_run, bind_run]
  let touched : Scene (Traced η) σ :=
    { s with supervisor := { s.supervisor with lastActivity := H.traced.now s.host } }
  have htouched : Custody H config touched := ⟨h.config_eq, h.records⟩
  have hrecords := htouched.onChannel (ask m) fun line c t =>
    ask_keeps (H.transport line).traced_keeps m c t
  change Life.Records H (Supervisor.onChannel H.traced (ask m) touched).2.host.trace
    (Supervisor.onChannel H.traced (ask m) touched).2.supervisor.life at hrecords
  -- what comes after the use of the channel announces something at most
  generalize Supervisor.onChannel H.traced (ask m) touched = out at hrecords
  obtain ⟨answer, s'⟩ := out
  cases answer with
  | error e => exact hrecords
  | ok answer =>
    cases answer with
    | item | ended | waiting => exact hrecords
    | failed e => cases e <;> exact hrecords

/-- **Every operation keeps to what is on record.** -/
theorem perform (h : Custody H config s) (op : Operation (Traced η)) (hop : op.OffRecord H) :
    Custody H config (op.perform H.traced s) := by
  refine ⟨(Lifecycle.owner_eq (perform_move H.traced op s)).2.trans h.config_eq, ?_⟩
  cases op with
  | start => exact h.start
  | stop => exact h.stop
  | isRunning => exact h.isRunning
  | request m => exact h.request m
  | useChannel use => exact h.onChannel _ hop
  | touch => exact h.records

/-- So does every run of them. -/
theorem performAll (h : Custody H config s) (ops : List (Operation (Traced η)))
    (hops : ∀ op ∈ ops, op.OffRecord H) : Custody H config (performAll H.traced ops s) := by
  induction ops generalizing s with
  | nil => exact h
  | cons op ops ih =>
    rw [List.forall_mem_cons] at hops
    exact ih (h.perform op hops.1) hops.2

end Custody

end Overseer
