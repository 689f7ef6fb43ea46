import Overseer.Loop.Serve
import Overseer.Proofs.Loop.Loyalty

/-!
# A record of the calls of a server's code

A loop reaches its server through the server's code only: the setup, the handlers, the callbacks and
the last hook. `Server.recorded` is a server that puts each `ServerCall` on record, with the world
in which its code begins to run, and does everything else as the server that it is made from.

`Code.Records` says that code does so: with a record at hand it does what it does without, and adds
to the record. A loop does (`Loop.records_run`), and adds nothing but handlers and callbacks.
-/

namespace Overseer

variable {σ α β : Type}

/-- A call of a server's code. -/
inductive ServerCall where
  | setup
  | handler (name : String) (args : List Octets)
  | callback (signal : Signal)
  | finalize
  deriving DecidableEq

/-- Whether it is the loop that makes a call. -/
def ServerCall.ofLoop : ServerCall → Bool
  | handler _ _ | callback _ => true
  | setup | finalize => false

/-- The state of a server with the record of the calls of its code, oldest first. -/
structure Recorded (σ : Type) where
  server : σ
  record : List (ServerCall × World σ) := []

namespace World

/-- The world of a server with a record. -/
def recording (w : World σ) (record : List (ServerCall × World σ)) : World (Recorded σ) :=
  { w with server := ⟨w.server, record⟩ }

/-- The world without the record. -/
def plain (w : World (Recorded σ)) : World σ := { w with server := w.server.server }

end World

/-- What came of code, with a record. -/
def resultRecording (record : List (ServerCall × World σ)) :
    EStateM.Result Halt (World σ) α → EStateM.Result Halt (World (Recorded σ)) α
  | .ok a w => .ok a (w.recording record)
  | .error halt w => .error halt (w.recording record)

namespace Code

/-- Puts a call of code on record. -/
def recorded (call : ServerCall) (code : Code σ Unit) : Code (Recorded σ) Unit := fun w =>
  resultRecording (w.server.record ++ [(call, w.plain)]) (code w.plain)

/-- Runs code that keeps a record, and forgets the record. -/
def unrecorded (code : Code (Recorded σ) Unit) : Code σ Unit := fun w =>
  match code (w.recording []) with
  | .ok a w => .ok a w.plain
  | .error halt w => .error halt w.plain

end Code

/-- An action whose callback is changed. -/
def SignalAction.map (f : α → β) : SignalAction α → SignalAction β
  | default => .default
  | ignore => .ignore
  | quit => .quit
  | callback run => .callback (f run)

/-- A table whose callbacks are changed. -/
def SignalTable.map (f : α → β) (t : SignalTable α) : SignalTable β :=
  ⟨fun signal => (t.action? signal).map (SignalAction.map f)⟩

/-- A table of callbacks that are put on record. -/
def SignalTable.recorded (t : SignalTable (Callback σ)) : SignalTable (Callback (Recorded σ)) :=
  t.map fun run signal => (run signal).recorded (.callback signal)

/-- Handlers that are put on record. -/
def Handlers.recorded (t : Handlers (Handler σ)) : Handlers (Handler (Recorded σ)) :=
  ⟨t.entries.map fun (name, handler) =>
    (name, fun args => (handler args).recorded (.handler name args))⟩

/-- A server that keeps a record of the calls of its code. -/
def Server.recorded (srv : Server σ) : Server (Recorded σ) where
  name s := srv.name s.server
  handlers := srv.handlers.recorded
  bindSignals s t :=
    (srv.bindSignals s.server (t.map fun run signal => (run signal).unrecorded)).recorded
  beforeFork keep s :=
    let (answer, server) := srv.beforeFork keep s.server
    (answer, { s with server })
  afterFork s := { s with server := srv.afterFork s.server }
  setup := srv.setup.recorded .setup
  finalize := srv.finalize.recorded .finalize

/-! ## Tables -/

theorem SignalAction.disposition_map (f : α → β) (a : SignalAction α) :
    (a.map f).disposition = a.disposition := by
  cases a <;> rfl

theorem SignalTable.callback?_map (f : α → β) (t : SignalTable α) (signal : Signal) :
    (t.map f).callback? signal = (t.callback? signal).map f := by
  have haction : (t.map f).action? signal = (t.action? signal).map (SignalAction.map f) := rfl
  unfold callback?
  rw [haction]
  cases t.action? signal with
  | none => rfl
  | some a => cases a <;> rfl

/-- What is installed for a table does not depend on the callbacks. -/
theorem SignalTable.plan_map (f : α → β) (t : SignalTable α) : (t.map f).plan = t.plan := by
  have hentries : (t.map f).entries =
      t.entries.map fun entry => (entry.1, entry.2.map f) := by
    unfold entries
    rw [List.map_filterMap]
    congr 1
    funext signal
    show ((t.action? signal).map _).map _ = ((t.action? signal).map _).map _
    rw [Option.map_map, Option.map_map]
    rfl
  unfold plan
  rw [hentries, List.filter_map, List.map_map]
  refine congrArg₂ List.map ?_ rfl
  funext entry
  exact congrArg (Prod.mk entry.1) (SignalAction.disposition_map f entry.2)

theorem Handlers.get?_recorded (t : Handlers (Handler σ)) (name : String) :
    t.recorded.get? name = (t.get? name).map fun handler args =>
      (handler args).recorded (.handler name args) := by
  obtain ⟨entries⟩ := t
  show (entries.map _).lookup name = (entries.lookup name).map _
  induction entries with
  | nil => rfl
  | cons entry entries ih =>
    obtain ⟨other, handler⟩ := entry
    rw [List.map_cons, List.lookup_cons, List.lookup_cons]
    cases heq : name == other with
    | true => rw [eq_of_beq heq]; rfl
    | false => exact ih

/-- A table that binds no callback. -/
theorem SignalTable.map_ofTermination (f : α → β) (signal : Signal) :
    (ofTermination signal).map f = ofTermination signal := by
  unfold SignalTable.map ofTermination set
  congr 1
  funext other
  show Option.map _ (if _ then _ else if _ then _ else _) = (if _ then _ else if _ then _ else _)
  split
  · rfl
  · split <;> rfl

/-! ## Code that keeps a record -/

namespace Code

/-- Code does with a record at hand what other code does without, and puts some calls on record, all
of a kind. -/
def Records (kind : ServerCall → Prop) (code' : Code (Recorded σ) α) (code : Code σ α) : Prop :=
  ∀ w record, ∃ calls : List (ServerCall × World σ), (∀ c ∈ calls, kind c.1) ∧
    code' (w.recording record) = resultRecording (record ++ calls) (code w)

variable {kind : ServerCall → Prop} {code' : Code (Recorded σ) α} {code : Code σ α}

/-- Code that puts nothing on record. -/
theorem Records.of_eq
    (h : ∀ w record, code' (w.recording record) = resultRecording record (code w)) :
    Records kind code' code := by
  intro w record
  refine ⟨[], fun c hc => absurd hc List.not_mem_nil, ?_⟩
  rw [List.append_nil]
  exact h w record

theorem Records.eq (h : Records (fun _ => False) code' code) (w : World σ)
    (record : List (ServerCall × World σ)) :
    code' (w.recording record) = resultRecording record (code w) := by
  obtain ⟨calls, hkind, hrun⟩ := h w record
  rw [List.eq_nil_iff_forall_not_mem.2 hkind, List.append_nil] at hrun
  exact hrun

theorem Records.pure (a : α) : Records kind (pure a) (pure a : Code σ α) :=
  .of_eq fun _ _ => rfl

theorem Records.throw (halt : Halt) : Records kind (throw halt) (throw halt : Code σ α) :=
  .of_eq fun _ _ => rfl

theorem Records.bind {f' : α → Code (Recorded σ) β} {f : α → Code σ β}
    (h : Records kind code' code) (hf : ∀ a, Records kind (f' a) (f a)) :
    Records kind (code' >>= f') (code >>= f) := by
  intro w record
  obtain ⟨calls, hcalls, hrun⟩ := h w record
  rw [bind_apply, bind_apply, hrun]
  cases code w with
  | ok a w' =>
    obtain ⟨later, hlater, hrest⟩ := hf a w' (record ++ calls)
    refine ⟨calls ++ later, ?_, ?_⟩
    · intro c hc
      exact (List.mem_append.1 hc).elim (hcalls c) (hlater c)
    · rw [← List.append_assoc]
      exact hrest
  | error halt w' => exact ⟨calls, hcalls, rfl⟩

theorem Records.get_bind {f' : World (Recorded σ) → Code (Recorded σ) α} {f : World σ → Code σ α}
    (hf : ∀ w record, Records kind (f' (w.recording record)) (f w)) :
    Records kind (get >>= f') (get >>= f) :=
  fun w record => hf w record w record

theorem Records.forM {xs : List α} {f' : α → Code (Recorded σ) Unit} {f : α → Code σ Unit}
    (hf : ∀ x, Records kind (f' x) (f x)) : Records kind (xs.forM f') (xs.forM f) := by
  induction xs with
  | nil => exact .pure ()
  | cons x xs ih => exact (hf x).bind fun _ => ih

theorem Records.modifySignals (f : SignalState → α × SignalState) :
    Records kind (modifySignals f) (modifySignals f : Code σ α) :=
  .of_eq fun _ _ => rfl

theorem Records.preempt : Records kind preempt (preempt : Code σ Unit) := by
  refine .of_eq fun w record => ?_
  obtain ⟨server, context, process⟩ := w
  show disturb _ ⟨⟨server, record⟩, context, process⟩ =
    resultRecording record (disturb _ ⟨server, context, process⟩)
  simp only [disturb]
  generalize process.preempt.resume = process
  cases process.status <;> rfl

theorem Records.receive : Records kind receive (receive : Code σ (Reception Envelope)) := by
  refine .of_eq fun w record => ?_
  obtain ⟨server, context, process⟩ := w
  show receiving _ ⟨⟨server, record⟩, context, process⟩ =
    resultRecording record (receiving _ ⟨server, context, process⟩)
  simp only [receiving]
  generalize context.channel.receive Process.transport process = out
  obtain ⟨r, channel, process⟩ := out
  cases r <;> rfl

/-- Code that is put on record. -/
theorem Records.recorded {call : ServerCall} {code : Code σ Unit} (h : kind call) :
    Records kind (code.recorded call) code := by
  refine fun w record => ⟨[(call, w)], ?_, rfl⟩
  intro c hc
  rw [List.mem_singleton.1 hc]
  exact h

end Code

/-! ## A loop that keeps a record -/

namespace Loop

open Code

variable {table : SignalTable (Callback σ)}

/-- The calls that a loop makes. -/
abbrev LoopCall (call : ServerCall) : Prop := call.ofLoop = true

theorem records_pendingQuit {kind : ServerCall → Prop} :
    Records kind pendingQuit (pendingQuit : Code σ (Option Signal)) := by
  refine .get_bind fun w record => ?_
  show Records kind (if w.context.managed then takeQuit else pure none)
    (if w.context.managed then takeQuit else pure none)
  split
  · exact .modifySignals _
  · exact .pure none

theorem records_callBack (signal : Signal) :
    Records LoopCall (callBack table.recorded signal) (callBack table signal) := by
  unfold callBack SignalTable.recorded
  rw [SignalTable.callback?_map]
  cases table.callback? signal with
  | none => exact .pure ()
  | some run => exact .recorded rfl

theorem records_runDeferred :
    Records LoopCall (runDeferred table.recorded) (runDeferred table) := by
  refine .get_bind fun w record => ?_
  show Records LoopCall
    (if w.context.managed then takePending >>= fun signals => signals.forM _ else pure ())
    (if w.context.managed then takePending >>= fun signals => signals.forM _ else pure ())
  split
  · exact (Records.modifySignals _).bind fun _ => .forM fun signal => records_callBack signal
  · exact .pure ()

variable {handlers : Handlers (Handler σ)}

theorem records_dispatch (e : Envelope) :
    Records LoopCall (dispatch handlers.recorded e) (dispatch handlers e) := by
  refine (Records.of_eq fun w record => rfl).bind fun _ => ?_
  rw [Handlers.get?_recorded]
  cases handlers.get? e.message.name with
  | none => exact .throw _
  | some handler => exact .recorded rfl

theorem records_attend : Records LoopCall (attend handlers.recorded) (attend handlers) := by
  refine Records.receive.bind fun r => ?_
  cases r with
  | item e => exact (records_dispatch e).bind fun _ => .pure _
  | ended => exact records_pendingQuit.bind fun _ => .pure _
  | failed e =>
    cases e with
    | interrupted => exact .pure _
    | _ =>
      refine records_pendingQuit.bind fun request => ?_
      cases request with
      | none => exact .throw _
      | some signal => exact .pure _
  | waiting => exact .throw _

theorem records_checkQuit :
    Records LoopCall checkQuit (checkQuit : Code σ (Option LoopExit)) := by
  refine records_pendingQuit.bind fun request => ?_
  cases request with
  | some signal => exact .pure _
  | none => exact .get_bind fun w record => .pure _

/-- **A turn of the loop** puts the calls that it makes on record. -/
theorem records_pass :
    Records LoopCall (pass handlers.recorded table.recorded) (pass handlers table) := by
  refine records_attend.bind fun exit => ?_
  cases exit with
  | some exit => exact .pure _
  | none => exact records_runDeferred.bind fun _ => records_checkQuit

theorem records_within (turns : Nat) :
    Records LoopCall (within handlers.recorded table.recorded turns)
      (within handlers table turns) := by
  induction turns with
  | zero => exact .throw _
  | succ turns ih =>
    refine records_pass.bind fun exit => ?_
    cases exit with
    | some exit => exact .pure _
    | none => exact ih

/-- **The loop** puts the calls that it makes on record, and does what it does without one. -/
theorem records_run :
    Records LoopCall (run handlers.recorded table.recorded) (run handlers table) :=
  .get_bind fun w _ => records_within (w.pendingInput + 1)

/-! ## Taking over the signals with a record -/

theorem records_bindAll {kind : ServerCall → Prop} (plan : List (Signal × Disposition))
    (signals : List Signal) (m : SignalManager) :
    Records kind (bindAll plan signals m) (bindAll plan signals m : Code σ SignalManager) := by
  induction signals generalizing m with
  | nil => exact .pure m
  | cons signal signals ih =>
    exact (Records.modifySignals _).bind fun m => Records.preempt.bind fun _ => ih m

theorem records_takeOver {kind : ServerCall → Prop} :
    Records kind (takeOver table.recorded) (takeOver table) := by
  unfold takeOver SignalTable.recorded
  rw [SignalTable.plan_map]
  refine (Records.modifySignals _).bind fun _ => (records_bindAll _ _ _).bind fun m => ?_
  refine .get_bind fun w record => ?_
  exact (Records.modifySignals _).bind fun _ => Records.preempt.bind fun _ => .pure m

end Loop

end Overseer
