import Overseer.Proofs.Loop.Record
import Overseer.Proofs.Loop.TakeOver

/-!
# The last hook

Whatever becomes of the setup and of the loop, unless it is a panic, the last hook runs once: behind
all handlers and callbacks, and before the signals are put back. `finalized_once` says so of the
record that a server keeps of the calls of its code, and what the server comes to; `unfinalized` is
a panic in a handler, behind which the last hook does not run.

Signals that were bound can be bound again, so `SignalManager.restore` does not fail. What a server
comes to if it fails nevertheless is said of `serveOn`, in which some signals may refuse to be bound
again. It is `serve` if none does (`serveOn_none`).
-/

namespace Overseer

namespace SignalManager

/-- Puts one former disposition back, unless the signal refuses. The first refusal is remembered. -/
def putBack (refusal : Signal → Option Errno) :
    Option Errno × SignalState → Signal × Disposition → Option Errno × SignalState
  | (first, s), (signal, d) =>
    match refusal signal with
    | some e => (first.or (some e), s)
    | none => (first, s.bind signal d)

/-- Puts the former dispositions back, the last one first, as far as the signals do not refuse. It
fails with the first refusal, after it has tried every signal. -/
def restoreOn (refusal : Signal → Option Errno) (m : SignalManager) (s : SignalState) :
    Except Errno Unit × SignalState :=
  let (first, s) := m.saved.reverse.foldl (putBack refusal) (none, s)
  (first.elim (.ok ()) .error, s.setWakeup none)

/-- Gives a manager up where some signals may refuse. Nobody is told of a refusal. -/
def releaseOn (refusal : Signal → Option Errno) (m : SignalManager) (s : SignalState) :
    SignalState :=
  if m.saved.isEmpty then s else (m.restoreOn refusal s).2

theorem restoreOn_none (m : SignalManager) (s : SignalState) :
    m.restoreOn (fun _ => none) s = (.ok (), (m.restore s).2) := by
  have hfold : ∀ (saved : List (Signal × Disposition)) (s : SignalState),
      saved.foldl (putBack fun _ => none) (none, s) =
        (none, saved.foldl (fun s x => s.bind x.1 x.2) s) := by
    intro saved
    induction saved with
    | nil => exact fun _ => rfl
    | cons _ _ ih => exact fun s => ih _
  unfold restoreOn restore
  rw [hfold]
  rfl

theorem releaseOn_none (m : SignalManager) (s : SignalState) :
    m.releaseOn (fun _ => none) s = m.release s := by
  unfold releaseOn release
  rw [restoreOn_none]

end SignalManager

namespace Loop

variable {σ α : Type}

/-! ## Signals that refuse to be put back -/

/-- What a server comes to: the failure of its loop counts before one to put the signals back. -/
def settle (outcome : Except LoopError LoopExit) (restored : Except Errno Unit) :
    Except LoopError LoopExit :=
  match outcome, restored with
  | .error e, _ => .error e
  | .ok _, .error e => .error (.signals e)
  | .ok exit, .ok () => .ok exit

/-- Comes to an end in a world. -/
def ending (outcome : Except LoopError LoopExit) (w : World σ) :
    EStateM.Result Halt (World σ) LoopExit :=
  match outcome with
  | .ok exit => .ok exit w
  | .error e => .error (.failed e) w

/-- Takes over the signals, if they are managed. -/
def installing (table : SignalTable (Callback σ)) : Code σ (Option SignalManager) := do
  if (← get).context.managed then return some (← takeOver table) else return none

/-- Puts the signals of a process back, if they were taken over. -/
def restoredOn (refusal : Signal → Option Errno) (guard : Option SignalManager)
    (s : SignalState) : Except Errno Unit × SignalState :=
  guard.elim (.ok (), s) fun m => m.restoreOn refusal s

/-- Puts the signals back and comes to an end. -/
def settling (refusal : Signal → Option Errno) (guard : Option SignalManager)
    (outcome : Except LoopError LoopExit) (w : World σ) :
    EStateM.Result Halt (World σ) LoopExit :=
  ending (settle outcome (restoredOn refusal guard w.process.signals).1)
    (withSignals w fun _ => (restoredOn refusal guard w.process.signals).2)

/-- Runs code and puts the signals back, however it comes to an end; only a process that has ended
or that waits for ever leaves them as they are. -/
def restoringOn (refusal : Signal → Option Errno) (guard : Option SignalManager)
    (code : Code σ LoopExit) : Code σ LoopExit := fun w =>
  match code w with
  | .ok exit w => settling refusal guard (.ok exit) w
  | .error (.failed e) w => settling refusal guard (.error e) w
  | .error (.panicked p) w =>
    .error (.panicked p) (withSignals w fun s => guard.elim s fun m => m.releaseOn refusal s)
  | .error halt w => .error halt w

/-- Serves the peer to the end in a process in which some signals may refuse to be put back. -/
def serveOn (refusal : Signal → Option Errno) (srv : Server σ) (config : Config) :
    Code σ LoopExit := do
  let w ← get
  let table := srv.bindSignals w.server (.ofTermination config.terminationSignal)
  let guard ← installing table
  restoringOn refusal guard (hooked srv table)

/-- **Where no signal refuses a server serves as ever.** -/
theorem serveOn_none (srv : Server σ) (config : Config) :
    serveOn (fun _ => none) srv config = serve srv config := by
  have hguarded : ∀ (m : SignalManager) (code : Code σ LoopExit),
      restoringOn (fun _ => none) (some m) code = restoring m code := by
    intro m code
    funext w
    unfold restoringOn restoring settling restoredOn
    simp only [Option.elim_some, SignalManager.restoreOn_none, SignalManager.releaseOn_none]
    cases code w with
    | ok exit w => rfl
    | error halt w => cases halt <;> rfl
  have hunguarded : ∀ code : Code σ LoopExit, restoringOn (fun _ => none) none code = code := by
    intro code
    funext w
    unfold restoringOn
    cases hcode : code w with
    | ok exit w => rfl
    | error halt w => cases halt <;> rfl
  funext w
  unfold serveOn serve installing
  simp only [Code.get_bind]
  rw [Code.bind_apply, Code.get_bind]
  cases w.context.managed with
  | false =>
    show restoringOn _ none _ w = _
    rw [hunguarded]
    rfl
  | true =>
    simp only [if_true]
    rw [Code.bind_apply, Code.bind_apply]
    cases takeOver _ w with
    | ok m w' => exact congrFun (hguarded m _) w'
    | error halt w' => rfl

/-! ## The last hook behind the loop -/

/-- What the setup and the loop have come to, if the last hook runs behind them. -/
def concluded? : EStateM.Result Halt (World σ) LoopExit →
    Option (Except LoopError LoopExit × World σ)
  | .ok exit w => some (.ok exit, w)
  | .error (.failed e) w => some (.error e, w)
  | .error (.panicked _) _ | .error (.ended _) _ | .error .waiting _ => none

variable {srv : Server σ} {table : SignalTable (Callback σ)} {w : World σ}

/-- **The setup and the loop, on record.** -/
theorem recorded_run (srv : Server σ) (table : SignalTable (Callback σ)) (w : World σ) :
    ∃ calls : List (ServerCall × World σ), (∀ c ∈ calls, c.1.ofLoop = true) ∧
      (calls ≠ [] → ∃ w', srv.setup w = .ok () w') ∧
      (do srv.recorded.setup; run srv.recorded.handlers table.recorded :
        Code (Recorded σ) LoopExit) (w.recording []) =
        resultRecording ((.setup, w) :: calls)
          ((do srv.setup; run srv.handlers table : Code σ LoopExit) w) := by
  rw [Code.bind_apply, Code.bind_apply,
    show srv.recorded.setup (w.recording []) = resultRecording [(.setup, w)] (srv.setup w) from rfl]
  cases srv.setup w with
  | ok a w' =>
    have hrecords : Code.Records LoopCall (run srv.recorded.handlers table.recorded)
        (run srv.handlers table) := records_run
    obtain ⟨calls, hcalls, hrun⟩ := hrecords w' [(.setup, w)]
    exact ⟨calls, hcalls, fun _ => ⟨w', rfl⟩, hrun⟩
  | error halt w' => exact ⟨[], fun c hc => absurd hc List.not_mem_nil, nofun, rfl⟩

/-- **The setup, the loop and the last hook, on record.** -/
theorem recorded_hooked (srv : Server σ) (table : SignalTable (Callback σ)) (w : World σ) :
    ∃ calls tail : List (ServerCall × World σ), (∀ c ∈ calls, c.1.ofLoop = true) ∧
      (calls ≠ [] → ∃ w', srv.setup w = .ok () w') ∧
      tail = ((concluded? ((do srv.setup; run srv.handlers table : Code σ LoopExit) w)).map
        fun (_, w₁) => (ServerCall.finalize, w₁)).toList ∧
      hooked srv.recorded table.recorded (w.recording []) =
        resultRecording ((.setup, w) :: calls ++ tail) (hooked srv table w) := by
  obtain ⟨calls, hcalls, hsetup, hrun⟩ := recorded_run srv table w
  refine ⟨calls, _, hcalls, hsetup, rfl, ?_⟩
  unfold hooked
  rw [hrun]
  have hfinal : ∀ (outcome : Except LoopError LoopExit) (w₁ : World σ),
      finalizing srv.recorded outcome (w₁.recording ((.setup, w) :: calls)) =
        resultRecording ((.setup, w) :: calls ++ [(.finalize, w₁)])
          (finalizing srv outcome w₁) := by
    intro outcome w₁
    unfold finalizing
    rw [show srv.recorded.finalize (w₁.recording ((.setup, w) :: calls)) =
      resultRecording ((.setup, w) :: calls ++ [(.finalize, w₁)]) (srv.finalize w₁) from rfl]
    cases srv.finalize w₁ with
    | ok a w₂ => cases outcome <;> rfl
    | error halt w₂ => cases halt <;> cases outcome <;> rfl
  cases (do srv.setup; run srv.handlers table : Code σ LoopExit) w with
  | ok exit w₁ => exact hfinal (.ok exit) w₁
  | error halt w₁ =>
    cases halt with
    | failed e => exact hfinal (.error e) w₁
    | panicked | ended | waiting =>
      show _ = resultRecording ((.setup, w) :: calls ++ []) _
      rw [List.append_nil]
      rfl

/-! ## The whole run -/

section
variable {config : Config} {server : σ} {process : Process} {guard : Option SignalManager}
  {w₀ : World σ}

/-- Signals that are managed are installed by taking them over. -/
theorem installing_of_takeOver {table : SignalTable (Callback σ)} {m : SignalManager} {w : World σ}
    (hmanaged : w.context.managed = true) (htake : takeOver table w = .ok m w₀) :
    installing table w = .ok (some m) w₀ := by
  rw [installing, Code.get_bind, if_pos hmanaged, Code.bind_apply, htake]
  rfl

/-- A server whose signals are installed runs its hooks and its loop behind that. -/
theorem serveOn_of_installing (refusal : Signal → Option Errno)
    (htake : installing (tableOf srv config server) (start server config process) =
      .ok guard w₀) :
    serveOn refusal srv config (start server config process) =
      restoringOn refusal guard (hooked srv (tableOf srv config server)) w₀ := by
  rw [serveOn, Code.get_bind, Code.bind_apply]
  rw [tableOf] at htake
  simp only [start] at htake ⊢
  rw [htake]
  rfl

/-- A server with a record binds the signals as it does without. -/
theorem tableOf_recorded (srv : Server σ) (config : Config) (server : σ)
    (record : List (ServerCall × World σ)) :
    tableOf srv.recorded config ⟨server, record⟩ = (tableOf srv config server).recorded := by
  show (srv.bindSignals server (SignalTable.map _ (.ofTermination _))).recorded = _
  rw [SignalTable.map_ofTermination]
  rfl

/-- Installing the signals runs no code of the server. -/
theorem recorded_installing
    (htake : installing (tableOf srv config server) (start server config process) =
      .ok guard w₀) :
    installing (tableOf srv.recorded config ⟨server, []⟩) (start ⟨server, []⟩ config process) =
      .ok guard (w₀.recording []) := by
  have hrecords : Code.Records (fun _ => False) (installing (tableOf srv config server).recorded)
      (installing (tableOf srv config server)) := by
    refine .get_bind fun w record => ?_
    show Code.Records _
      (if w.context.managed then takeOver _ >>= fun m => pure (some m) else pure none)
      (if w.context.managed then takeOver _ >>= fun m => pure (some m) else pure none)
    split
    · exact records_takeOver.bind fun m => .pure _
    · exact .pure _
  have heq := hrecords.eq (start server config process) []
  rw [htake] at heq
  rw [tableOf_recorded]
  exact heq

/-- Putting the signals back runs no code of the server. -/
theorem recorded_restoringOn (refusal : Signal → Option Errno)
    {code' : Code (Recorded σ) LoopExit} {code : Code σ LoopExit}
    {record : List (ServerCall × World σ)} {w' : World (Recorded σ)}
    (h : code' w' = resultRecording record (code w)) :
    restoringOn refusal guard code' w' =
      resultRecording record (restoringOn refusal guard code w) := by
  have hsettling : ∀ (outcome : Except LoopError LoopExit) (w : World σ),
      settling refusal guard outcome (w.recording record) =
        resultRecording record (settling refusal guard outcome w) := by
    intro outcome w
    show ending (settle outcome (restoredOn refusal guard w.process.signals).1) _ =
      resultRecording record (ending (settle outcome _) _)
    cases settle outcome (restoredOn refusal guard w.process.signals).1 <;> rfl
  unfold restoringOn
  rw [h]
  cases code w with
  | ok exit w₁ => exact hsettling (.ok exit) w₁
  | error halt w₁ =>
    cases halt with
    | failed e => exact hsettling (.error e) w₁
    | panicked | ended | waiting => rfl

/-- Where the setup, the loop and the last hook come to an end the signals are put back behind
them. -/
theorem restoringOn_of_concluded (refusal : Signal → Option Errno)
    {table : SignalTable (Callback σ)} {outcome : Except LoopError LoopExit} {w w₁ w₂ : World σ}
    (hrun : concluded? ((do srv.setup; run srv.handlers table : Code σ LoopExit) w) =
      some (outcome, w₁))
    (hfinal : srv.finalize w₁ = .ok () w₂ ∨ ∃ e, srv.finalize w₁ = .error (.failed e) w₂) :
    restoringOn refusal guard (hooked srv table) w = settling refusal guard outcome w₂ := by
  have hfinalizing : finalizing srv outcome w₁ = ending outcome w₂ := by
    unfold finalizing
    rcases hfinal with hfinal | ⟨e, hfinal⟩ <;> rw [hfinal] <;> cases outcome <;> rfl
  have hhooked : hooked srv table w = ending outcome w₂ := by
    rw [← hfinalizing, hooked]
    cases hcase : (do srv.setup; run srv.handlers table : Code σ LoopExit) w with
    | ok exit w' =>
      rw [hcase] at hrun
      cases hrun
      rfl
    | error halt w' =>
      rw [hcase] at hrun
      cases halt <;> cases hrun
      rfl
  rw [restoringOn, hhooked]
  cases outcome <;> rfl

/-- A panic, and the end of the process, pass by the last hook. -/
theorem restoringOn_of_halt (refusal : Signal → Option Errno)
    {table : SignalTable (Callback σ)} {halt : Halt} {w w₁ : World σ}
    (hrun : (do srv.setup; run srv.handlers table : Code σ LoopExit) w = .error halt w₁)
    (hhalt : ∀ e, halt ≠ .failed e) :
    ∃ w', restoringOn refusal guard (hooked srv table) w = .error halt w' := by
  rw [restoringOn, hooked, hrun]
  cases halt with
  | failed e => exact absurd rfl (hhalt e)
  | panicked | ended | waiting => exact ⟨_, rfl⟩

/-- **The last hook runs once.** A server has got past installing its signals, if it manages them.
With a record of the calls of its code at hand it does what it does without, and the record is that
of its setup, then of handlers and callbacks, if the setup has succeeded, then of the last hook.
If the setup and the loop have come to an end, well or not, then the last hook runs, once, in the
world that they have left. If that comes to an end, well or not, the signals are put back in the
world that it leaves; and the server comes to the failure of the setup or the loop if there is one,
else to that of putting the signals back, else to the exit of the loop.
If they have not, by a panic or because the process has ended or waits for ever, the last hook does
not run. -/
theorem finalized_once (refusal : Signal → Option Errno)
    (htake : installing (tableOf srv config server) (start server config process) =
      .ok guard w₀) :
    (∃ calls tail : List (ServerCall × World σ),
      serveOn refusal srv.recorded config (start ⟨server, []⟩ config process) =
        resultRecording ((.setup, w₀) :: calls ++ tail)
          (serveOn refusal srv config (start server config process)) ∧
      (∀ c ∈ calls, c.1.ofLoop = true) ∧
      (calls ≠ [] → ∃ w, srv.setup w₀ = .ok () w) ∧
      (∀ outcome w₁,
        concluded? ((do srv.setup; run srv.handlers (tableOf srv config server) :
          Code σ LoopExit) w₀) = some (outcome, w₁) →
        tail = [(.finalize, w₁)] ∧
        ∀ w₂, (srv.finalize w₁ = .ok () w₂ ∨ ∃ e, srv.finalize w₁ = .error (.failed e) w₂) →
          serveOn refusal srv config (start server config process) =
            ending (settle outcome (restoredOn refusal guard w₂.process.signals).1)
              (withSignals w₂ fun _ => (restoredOn refusal guard w₂.process.signals).2)) ∧
      (∀ halt w₁,
        (do srv.setup; run srv.handlers (tableOf srv config server) : Code σ LoopExit) w₀ =
          .error halt w₁ →
        (∀ e, halt ≠ .failed e) → tail = [] ∧
        ∃ w, serveOn refusal srv config (start server config process) = .error halt w)) ∧
    serveOn (fun _ => none) srv config = serve srv config := by
  obtain ⟨calls, tail, hcalls, hsetup, htail, hhooked⟩ :=
    recorded_hooked srv (tableOf srv config server) w₀
  have hplain := serveOn_of_installing refusal htake
  have hrecorded := serveOn_of_installing refusal (recorded_installing htake)
  refine ⟨⟨calls, tail, ?_, hcalls, hsetup, ?_, ?_⟩, serveOn_none srv config⟩
  · rw [hrecorded, hplain]
    rw [tableOf_recorded]
    exact recorded_restoringOn refusal hhooked
  · intro outcome w₁ hrun
    rw [hrun] at htail
    refine ⟨htail, fun w₂ hfinal => ?_⟩
    rw [hplain]
    exact restoringOn_of_concluded refusal hrun hfinal
  · intro halt w₁ hrun hhalt
    rw [hplain]
    refine ⟨?_, restoringOn_of_halt refusal hrun hhalt⟩
    rw [htail, hrun]
    cases halt with
    | failed e => exact absurd rfl (hhalt e)
    | panicked | ended | waiting => rfl

end

/-! A handler gives up, and then a signal refuses to be put back. -/

/-- A server whose only handler does this. -/
def doing (code : Code Unit Unit) : Server Unit where
  name _ := "doing"
  handlers := .ofList [("go", fun _ => code)]

/-- A server whose handler gives up. -/
def unwilling : Server Unit := doing (Code.fail (.failed "no"))

/-- Its process when it begins to serve: a message comes. -/
def toldToGo : Process where
  coming := [.arrive ⟨[1, 0, 0, 0, 0, 8, 0, 1, 0, 0, 0, 2, 103, 111], [], false⟩]

/-- A process in which the termination signal refuses. -/
def termRefuses (signal : Signal) : Option Errno :=
  if signal = .term then some .invalidArgument else none

/-- Whether a server gives up while its hooks are to run. -/
def givesUp (srv : Server Unit) (w : World Unit) (e : LoopError) : Bool :=
  match takeOver (tableOf srv {} ()) w with
  | .ok _ w₀ =>
    match (do srv.setup; run srv.handlers (tableOf srv {} ()) : Code Unit LoopExit) w₀ with
    | .error (.failed e') _ => decide (e' = e)
    | _ => false
  | _ => false

theorem finalized_once_behind_a_failure :
    ∃ calls w₀ w₁ w, (∀ c ∈ calls, c.1.ofLoop = true) ∧
      serveOn termRefuses unwilling.recorded {} (start ⟨(), []⟩ {} toldToGo) =
        .error (.failed (.failed "no")) w ∧
      w.server.record = (.setup, w₀) :: calls ++ [(.finalize, w₁)] := by
  obtain ⟨m, w₀, htake⟩ : ∃ m w₀, takeOver (tableOf unwilling {} ()) (start () {} toldToGo) =
      .ok m w₀ := ⟨_, _, takeOver_of_quiet rfl rfl⟩
  have hrun : givesUp unwilling (start () {} toldToGo) (.failed "no") = true := by decide +kernel
  simp only [givesUp, htake] at hrun
  split at hrun
  · next e w₁ hend =>
    cases of_decide_eq_true hrun
    obtain ⟨⟨calls, tail, hrecord, hcalls, -, hends, -⟩, -⟩ :=
      finalized_once termRefuses (installing_of_takeOver rfl htake)
    obtain ⟨rfl, hserve⟩ := hends (.error (.failed "no")) w₁ (by rw [hend]; rfl)
    have hresult := hrecord.trans (congrArg _ (hserve w₁ (.inl rfl)))
    exact ⟨calls, w₀, w₁, _, hcalls, hresult, rfl⟩
  · cases hrun

/-- **A panic passes by the last hook.** The record ends with the handler that has panicked. -/
theorem unfinalized :
    (match serve (doing (Code.panic (.text "boom"))).recorded {} (start ⟨(), []⟩ {} toldToGo) with
      | .error (.panicked p) w =>
        decide (p = .text "boom" ∧ w.server.record.map Prod.fst = [.setup, .handler "go" []])
      | _ => false) = true := by
  decide +kernel

end Loop

end Overseer
