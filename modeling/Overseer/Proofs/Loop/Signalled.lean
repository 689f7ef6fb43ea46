import Overseer.Proofs.Loop.Path
import Overseer.Proofs.Loop.Run
import Overseer.Proofs.Loop.TakeOver

/-!
# A request to quit ends the loop

A loop whose signals are managed ends as `Signalled` once it has been asked to quit, by the signal
that asked last, wherever the requests come: in the setup, in a handler, in a callback, in front of
a read or inside of it (`signalled_of_request`).

The argument is an invariant of the world, `Asked`: the request is there, and the inbox is shut. It
holds from the first request on (`Registered.asked`), for a course neither takes up a request nor
opens the inbox. While it holds no read waits, whatever ends a turn takes up the request, and so
does the look behind a message.
-/

namespace Overseer.Loop

variable {σ : Type}

/-- A loop whose requests to quit shut its inbox. -/
structure Registered (w : World σ) : Prop where
  managed : w.context.managed = true
  wakeup : w.process.signals.wakeup = some w.process.socket

/-- A loop that has been asked to quit, last by a signal. -/
structure Asked (signal : Signal) (w : World σ) : Prop where
  managed : w.context.managed = true
  request : w.process.signals.quitRequest = some signal
  shut : w.process.inbox.shut = true

/-- **The last request on a course counts, and has shut the inbox.** -/
theorem Registered.asked {w w' : World σ} {notes : List Note} {signal : Signal}
    (h : Registered w) (hgo : w.Goes notes w')
    (hlast : (Note.requests notes).getLast? = some signal) : Asked signal w' := by
  refine ⟨hgo.managed_eq.trans h.managed, ?_, hgo.course.shut (.inr ⟨?_, h.wakeup⟩)⟩
  · rw [hgo.course.quitRequest_eq, hlast]
    rfl
  · intro hnone
    rw [hnone] at hlast
    cases hlast

/-- **A loop that has taken over the signals is registered.** -/
theorem registered_of_takeOver {table : SignalTable (Callback σ)} {m : SignalManager}
    {w w₀ : World σ} (hmanaged : w.context.managed = true) (hsocket : 0 ≤ w.process.socket)
    (h : takeOver table w = .ok m w₀) : Registered w₀ := by
  obtain ⟨hcontext, hkept, hwakeup⟩ := takeOver_ok h
  refine ⟨by rw [hcontext, hmanaged], ?_⟩
  rw [hwakeup, hkept]
  exact Option.filter_some_pos (decide_eq_true hsocket)

/-! ## What is left once the loop has been asked -/

namespace Stage

/-- The server's code that runs at a stage does not fail there, and a message finds its handler. -/
def Succeeds (srv : Server σ) (table : SignalTable (Callback σ)) : Stage σ → Prop
  | setup w => ∃ w', srv.setup w = .ok () w'
  | handling e w => ∃ w', dispatch srv.handlers e w = .ok () w'
  | calling (signal :: _) w => ∃ w', callBack table signal w = .ok () w'
  | _ => True

/-- Whether a message is about to be handled. -/
def isHandling : Stage σ → Bool
  | handling _ _ => true
  | _ => false

/-- The number of messages that are still handled, once the loop has been asked to quit: one that
may have been received before the request counts, none behind a message, inside of the callbacks or
behind a read that was interrupted. -/
def quota : Stage σ → Nat
  | setup _ | receiving _ | poised _ | reading _ | received (.item _) _ | handling _ _ => 1
  | received _ _ | deferring _ | calling _ _ | checking _ | left _ => 0

/-- Whether what comes at a stage comes inside of a handler or of a callback, or interrupts a
read. -/
def CutsIn : Stage σ → Prop
  | handling _ _ | calling _ _ => True
  | reading w => ∃ r e process,
      w.process.readOn Channel.chunkSize = (some r, process) ∧
        r.result = .error e ∧ e.kind = .interrupted
  | _ => False

/-- Whether a read begins that has to wait. -/
def Blocks : Stage σ → Prop
  | reading w => w.process.readNow Channel.chunkSize = none
  | _ => False

end Stage

variable {srv : Server σ} {table : SignalTable (Callback σ)} {x y : Stage σ} {w : World σ}
  {signal : Signal}

/-- Where a request is looked for it is found. -/
theorem Asked.request_eq (h : Asked signal w) {request : Option Signal} {w' : World σ}
    (hlook : pendingQuit w = .ok request w') : request = some signal := by
  rw [pendingQuit_apply, if_pos h.managed, h.request] at hlook
  cases hlook
  rfl

theorem Asked.exit_eq (h : Asked signal w) {exit : Option LoopExit} {w' : World σ}
    (hlook : checkQuit w = .ok exit w') : exit = some (.signalled signal) := by
  obtain ⟨w'', hsome⟩ := checkQuit_of_some h.managed h.request
  cases hlook.symm.trans hsome
  rfl

/-- No read waits any more. -/
theorem Asked.not_blocks (h : Asked signal x.world) : ¬ x.Blocks := by
  cases x with
  | reading w =>
    intro hblocks
    obtain ⟨out, hnow⟩ := Process.readNow_of_shut h.shut Channel.chunkSize
    cases hnow.symm.trans hblocks
  | _ => exact id

theorem quota_le_one (x : Stage σ) : x.quota ≤ 1 := by
  unfold Stage.quota
  split <;> omega

/-- Each step that handles a message uses the quota up, and no step gives any back. -/
theorem Asked.quota_le (h : Asked signal x.world) (hlead : Leads srv table x y) :
    (if x.isHandling then 1 else 0) + y.quota ≤ x.quota := by
  cases hlead with
  | again hlook => cases h.exit_eq hlook
  | answered | dry | broken | onward | setupHalts =>
    show 0 + _ ≤ 1
    rw [Nat.zero_add]
    exact quota_le_one _
  | _ => exact Nat.le_refl _

/-- Nothing is handled behind a request that cuts in, if the channel reports an interruption. -/
theorem quota_of_cutsIn (h : x.CutsIn) (hreport : x.world.context.channel.interruptible = true)
    (hlead : Leads srv table x y) : y.quota = 0 := by
  cases hlead with
  | handled | called | looks | handlingHalts | callingHalts | dry | broken => rfl
  | @onward w r process channel hread habsorb =>
    -- the channel would have to be one that tries again
    obtain ⟨r', e, process', hread', hr, hkind⟩ := h
    cases hread.symm.trans hread'
    rcases Channel.absorb_eq_none habsorb with ⟨xs, hxs, -⟩ | ⟨hend, -⟩ | ⟨-, hretry, -⟩
    · cases hr.symm.trans hxs
    · rcases hend with hnil | ⟨e', he', hreset⟩
      · cases hr.symm.trans hnil
      · cases hr.symm.trans he'
        cases hkind.symm.trans hreset
    · cases hretry.symm.trans hreport
  | _ => exact h.elim

/-- A call that waits in vain although its inbox is shut does so because the process does not
run. -/
theorem status_of_waiting (hlead : Leads srv table x (.received .waiting w))
    (hshut : w.process.inbox.shut = true) : w.process.status ≠ .running := by
  generalize hy : (Stage.received .waiting w : Stage σ) = y at hlead
  cases hlead with
  | @answered w' answer channel hsettled =>
    -- what the buffer answers does not wait
    have hcompleted := Channel.completed_of_settled hsettled
    injection hy with hwaiting
    cases answer with
    | item value =>
      obtain ⟨frame, d⟩ := value
      cases frame <;> cases hwaiting
    | ended | failed => cases hwaiting
    | waiting => cases hcompleted
  | dry hread =>
    cases hy
    exact Process.readOn_in_vain hread hshut
  | _ => cases hy

/-- **A loop that has been asked to quit ends as it was asked to.** -/
theorem Asked.ends {r : EStateM.Result Halt (World σ) LoopExit} (h : Asked signal x.world)
    (hok : x.Succeeds srv table) (hlead : Leads srv table x (.left r)) :
    (∃ w', r = .ok (.signalled signal) w') ∨
      ∃ w', x = .received .waiting w' ∧ r = .error (Code.haltOf w'.process) w' := by
  cases hlead with
  | @closed w w' request hlook =>
    obtain rfl := h.request_eq hlook
    exact .inl ⟨w', rfl⟩
  | @excused w w' e signal' he hlook =>
    cases h.request_eq hlook
    exact .inl ⟨w', rfl⟩
  | failed he hlook => cases h.request_eq hlook
  | waits w => exact .inr ⟨w, rfl, rfl⟩
  | @stops w w' exit hlook =>
    cases h.exit_eq hlook
    exact .inl ⟨w', rfl⟩
  | setupHalts hrun | handlingHalts hrun | callingHalts hrun =>
    obtain ⟨w', hrun'⟩ := hok
    cases hrun.symm.trans hrun'

/-! ## The run behind a request -/

section
variable {stages : List (Stage σ)} {past notes : List Note} {w₀ : World σ}

/-- Whatever happens behind a request, the loop has been asked to quit, and the last request
counts. -/
theorem asked_on_path (hw : Registered w₀) (hgo : w₀.Goes past x.world)
    (hpast : Note.requests past ≠ []) (h : Path srv table x stages notes y)
    (hy : y.isLeft = false) :
    ∃ signal, (Note.requests (past ++ notes)).getLast? = some signal ∧ Asked signal y.world := by
  cases hlast : (Note.requests (past ++ notes)).getLast? with
  | none =>
    rw [List.getLast?_eq_none_iff, Note.requests_append] at hlast
    exact absurd (List.append_eq_nil_iff.1 hlast).1 hpast
  | some signal => exact ⟨signal, rfl, hw.asked (hgo.trans (h.goes hy)) hlast⟩

/-- Behind a request no more messages are handled than the quota allows, and no read waits. -/
theorem prompt_on_path (hw : Registered w₀) (hgo : w₀.Goes past x.world)
    (hpast : Note.requests past ≠ []) (h : Path srv table x stages notes y) :
    stages.countP Stage.isHandling + y.quota ≤ x.quota ∧ ∀ z ∈ stages, ¬ z.Blocks := by
  induction h with
  | nil => exact ⟨Nat.le_of_eq (Nat.zero_add _), fun z hz => absurd hz List.not_mem_nil⟩
  | snoc hpath hstep ih =>
    obtain ⟨hcount, hnone⟩ := ih
    obtain ⟨signal, -, hasked⟩ := asked_on_path hw hgo hpast hpath hstep.isLeft_eq
    refine ⟨?_, fun z hz => ?_⟩
    · have hquota := hasked.quota_le hstep.leads
      rw [List.countP_append, List.countP_singleton]
      omega
    · rcases List.mem_append.1 hz with hz | hz
      · exact hnone z hz
      · rw [List.mem_singleton.1 hz]
        exact hasked.not_blocks

/-- A call that has waited in vain came out of a step. -/
theorem status_on_path (h : Path srv table (.setup w₀) stages notes (.received .waiting w))
    (hshut : w.process.inbox.shut = true) : w.process.status ≠ .running := by
  cases h with
  | snoc _ hstep => exact status_of_waiting hstep.leads hshut

end

/-! ## The server behind the loop -/

/-- The last hook comes to an end, well or not. -/
def Finalizes (srv : Server σ) (w : World σ) : Prop :=
  ∃ w', srv.finalize w = .ok () w' ∨ ∃ e, srv.finalize w = .error (.failed e) w'

/-- A server serves as its loop ends. -/
theorem serve_of_run {config : Config} {server : σ} {process : Process} {m : SignalManager}
    {w₀ w : World σ} {exit : LoopExit} (hmanaged : config.manageSignals = true)
    (htake : takeOver (tableOf srv config server) (start server config process) = .ok m w₀)
    (hrun : (do srv.setup; run srv.handlers (tableOf srv config server) : Code σ LoopExit) w₀ =
      .ok exit w)
    (hfinal : Finalizes srv w) :
    ∃ w', serve srv config (start server config process) = .ok exit w' := by
  have hfinalizing : ∃ w', finalizing srv (.ok exit) w = .ok exit w' := by
    obtain ⟨w', hok | ⟨e, hfailed⟩⟩ := hfinal
    · refine ⟨w', ?_⟩
      rw [finalizing, hok]
    · refine ⟨w', ?_⟩
      rw [finalizing, hfailed]
  obtain ⟨w', hfinalizing⟩ := hfinalizing
  have hhooked : hooked srv (tableOf srv config server) w₀ = .ok exit w' := by
    rw [hooked, hrun]
    exact hfinalizing
  rw [serve_of_managed hmanaged, Code.bind_apply, htake]
  simp only [restoring, hhooked]
  exact ⟨_, rfl⟩

/-- **A request to quit ends the loop as `Signalled`, at once.** The signals of the server are
managed, and its end of the pair is a descriptor; what its code does where it runs is loyal; and at
some stage `x` of its run, be it the setup, a handler, a callback, the moment before a read or a
read that waits, it is asked to quit.
If the code that still runs does not fail then the run leads to an end. It ends as `Signalled` by
the signal that asked last, and so does the server, unless a signal ends or suspends the process
before. At most one message is handled in between, none if the request cuts in, and no read that
begins waits. -/
theorem signalled_of_request {config : Config} {server : σ} {process : Process}
    {m : SignalManager} {w₀ : World σ} {before : List (Stage σ)} {past notes : List Note}
    (hmanaged : config.manageSignals = true) (hsocket : 0 ≤ process.socket)
    (htake : takeOver (tableOf srv config server) (start server config process) = .ok m w₀)
    (hloyal : Loyally srv (tableOf srv config server) (.setup w₀))
    (hpath : Path srv (tableOf srv config server) (.setup w₀) before past x)
    (hstep : Step srv (tableOf srv config server) x notes y)
    (hasked : Note.requests notes ≠ [])
    (hok : ∀ z, Reaches srv (tableOf srv config server) y z →
      z.Succeeds srv (tableOf srv config server)) :
    (∃ after later r, Path srv (tableOf srv config server) y after later (.left r)) ∧
      ∀ after later r, Path srv (tableOf srv config server) y after later (.left r) →
        (do srv.setup; run srv.handlers (tableOf srv config server) : Code σ LoopExit) w₀ = r ∧
        ((∃ signal w, (Note.requests (past ++ notes ++ later)).getLast? = some signal ∧
            r = .ok (.signalled signal) w ∧
            (Finalizes srv w → ∃ w',
              serve srv config (start server config process) = .ok (.signalled signal) w')) ∨
          ∃ w, r = .error (Code.haltOf w.process) w ∧ w.process.status ≠ .running) ∧
        after.countP Stage.isHandling ≤ 1 ∧
        (x.CutsIn → after.countP Stage.isHandling = 0) ∧
        ∀ z ∈ after, ¬ z.Blocks := by
  have hpath' := hpath.snoc hstep
  have hw : Registered w₀ := registered_of_takeOver hmanaged hsocket htake
  have hreport : w₀.context.channel.interruptible = true := by
    rw [(takeOver_ok htake).1]
    rfl
  have hy : y.isLeft = false := by
    cases hstep with
    | goes hy _ => exact hy
    | ends _ _ => exact absurd rfl hasked
  have hgo : w₀.Goes (past ++ notes) y.world := hpath'.goes hy
  have hpast : Note.requests (past ++ notes) ≠ [] := by
    rw [Note.requests_append]
    exact List.append_ne_nil_of_right_ne_nil _ hasked
  have hend := reaches_run hloyal
  refine ⟨?_, fun after later r hafter => ?_⟩
  · -- the end comes after `y`, for nothing but itself comes after the end
    rcases hpath'.reaches.linear hend with h | h
    · obtain ⟨after, later, hafter⟩ := path_of_reaches (hloyal.of_reaches hpath'.reaches) h
      exact ⟨after, later, _, hafter⟩
    · rw [h.of_left] at hy
      cases hy
  have hrun := hend.end_unique (hpath'.append hafter).reaches
  obtain ⟨hcount, hnone⟩ := prompt_on_path hw hgo hpast hafter
  refine ⟨hrun, ?_, Nat.le_trans (Nat.le_of_add_right_le hcount) (quota_le_one y), ?_, hnone⟩
  · cases hafter with
    | nil => cases hy
    | @snoc z _ stages notes₁ notes₂ hbefore hlast =>
      obtain ⟨signal, hsignal, hasked'⟩ := asked_on_path hw hgo hpast hbefore hlast.isLeft_eq
      rcases hasked'.ends (hok z hbefore.reaches) hlast.leads with ⟨w, rfl⟩ | ⟨w, rfl, rfl⟩
      · refine .inl ⟨signal, w, ?_, rfl, serve_of_run hmanaged htake hrun⟩
        rw [hlast.notes_eq_nil rfl, List.append_nil]
        exact hsignal
      · exact .inr ⟨w, rfl, status_on_path (hpath'.append hbefore) hasked'.shut⟩
  · intro hcuts
    have hreport' := (hpath.goes hstep.isLeft_eq).interruptible_eq.trans hreport
    have hquota := quota_of_cutsIn hcuts hreport' hstep.leads
    omega

/-! A server without handlers is asked to quit while it waits for the rest of a frame. -/

/-- The server. -/
def listener : Server Unit := { name := fun _ => "listener" }

/-- Its process when it begins to serve: three octets come, and a signal. -/
def cutShort : Process := { coming := [.arrive ⟨[1, 0, 0], [], false⟩, .signal .term] }

/-- Its world once it has taken over the signals. -/
def listening : World Unit :=
  { start () {} cutShort with
    process := { cutShort with signals := {
      dispositions := fun signal =>
        if signal.trappable then SignalManager.planned [(.int, .quit), (.term, .quit)] signal
        else .default
      wakeup := some 3 } } }

/-- Its world while it waits. -/
def partway : World Unit :=
  listening.holding { listening.context.channel with buffer := [1, 0, 0] }
    { listening.process with coming := [.signal .term] }

theorem signalled_in_a_partial_frame :
    ∃ w, runInProcess listener {} () cutShort = .ok (.signalled .term) w := by
  have hplan : (tableOf listener {} ()).plan = [(.int, .quit), (.term, .quit)] := by decide
  have htake : takeOver (tableOf listener {} ()) (start () {} cutShort) =
      .ok (SignalManager.install [(.int, .quit), (.term, .quit)] {}).1 listening := by
    rw [takeOver_of_quiet rfl rfl, SignalManager.install_snd, hplan]
    rfl
  have hloyal : Loyally listener (tableOf listener {} ()) (.setup listening) := by
    refine loyally_of_loyal (.pure ()) (fun name handler h => ?_) (fun signal run h => ?_)
    · cases h
    · cases signal <;> cases h
  have hreach : Reaches listener (tableOf listener {} ()) (.setup listening) (.reading partway) :=
    Reaches.refl.next.next.next.next.next.next
  obtain ⟨before, past, hpath⟩ := path_of_reaches hloyal hreach
  have hcourse : partway.process.Course [.request .term]
      { (partway.process.act .term).2 with coming := [] } :=
    (Process.Course.act .term rfl).trans (.setComing List.nil_suffix)
  have hstep : Step listener (tableOf listener {} ()) (.reading partway) [.request .term]
      ((Stage.reading partway).next listener (tableOf listener {} ())) :=
    .goes rfl ⟨rfl, rfl, hcourse, by decide⟩
  have hok : ∀ z, Reaches listener (tableOf listener {} ())
      ((Stage.reading partway).next listener (tableOf listener {} ())) z →
        z.Succeeds listener (tableOf listener {} ()) := by
    intro z hz
    rcases hz.cases_head with rfl | hz
    · trivial
    rcases hz.cases_head with rfl | hz
    · trivial
    rcases hz.cases_head with rfl | hz
    · trivial
    rcases hz.cases_head with rfl | hz
    · trivial
    rw [Reaches.of_left hz]
    trivial
  obtain ⟨⟨after, later, r, hafter⟩, hends⟩ :=
    signalled_of_request rfl (by decide) htake hloyal hpath hstep nofun hok
  obtain ⟨hrun, ⟨signal, w, -, rfl, hserve⟩ | ⟨w, rfl, -⟩, -⟩ := hends after later r hafter
  · obtain ⟨w', hserve⟩ := hserve ⟨_, .inl rfl⟩
    have hterm : signal = .term := by
      cases hrun
      rfl
    rw [hterm] at hserve
    exact ⟨w', hserve⟩
  · cases hrun

end Overseer.Loop
