import Overseer.Proofs.Loop.Stage
import Overseer.Proofs.Process.Deliveries

/-!
# What a run does at most

Code is `Code.Within` a relation if the world that it leaves is in that relation to the world that
it found, in whatever way it comes to an end or a halt. A loop has signals delivered and takes up
what they have left; besides that it runs the code of its server. So a relation that has room for
the first two, and which the code of the server is within, is one that the whole run is within, from
the setup to the last hook (`HasRoom.hooked`), and at every stage (`Reaches.within`).
-/

namespace Overseer

variable {σ α β : Type}

namespace Code

/-- The world that code leaves, in whatever way it comes to an end or a halt. -/
def after (code : Code σ α) (w : World σ) : World σ :=
  match code w with
  | .ok _ w => w
  | .error _ w => w

theorem after_of_ok {code : Code σ α} {w w' : World σ} {a : α} (h : code w = .ok a w') :
    code.after w = w' := by
  rw [after, h]

theorem after_of_error {code : Code σ α} {w w' : World σ} {halt : Halt}
    (h : code w = .error halt w') : code.after w = w' := by
  rw [after, h]

/-- Code does to a world no more than what a relation has room for. -/
def Within (R : World σ → World σ → Prop) (code : Code σ α) : Prop := ∀ w, R w (code.after w)

variable {R : World σ → World σ → Prop} {code : Code σ α} {w w' : World σ}

theorem Within.of_ok (h : Within R code) {a : α} (hrun : code w = .ok a w') : R w w' := by
  have hw := h w
  rwa [after_of_ok hrun] at hw

theorem Within.of_error (h : Within R code) {halt : Halt} (hrun : code w = .error halt w') :
    R w w' := by
  have hw := h w
  rwa [after_of_error hrun] at hw

theorem Within.get_bind {f : World σ → Code σ β} (h : ∀ w, R w ((f w).after w)) :
    Within R ((get : Code σ (World σ)) >>= f) := h

end Code

namespace Loop

/-- A relation has room for what a loop does besides running the code of its server: signals are
delivered, and a loop that manages its signals takes up what they have left. -/
structure HasRoom (R : World σ → World σ → Prop) : Prop where
  trans {w w' w'' : World σ} (h : R w w') (h' : R w' w'') : R w w''
  delivered {w w' : World σ} (hmanaged : w'.context.managed = w.context.managed)
    (h : w.process.signals.Delivered w'.process.signals) : R w w'
  taken {w w' : World σ} (h : w.context.managed = true) (hmanaged : w'.context.managed = true)
    (hbound : w'.process.signals.dispositions = w.process.signals.dispositions) : R w w'

/-- The code of a server is within a relation. -/
structure ServerWithin (R : World σ → World σ → Prop) (srv : Server σ)
    (table : SignalTable (Callback σ)) : Prop where
  setup : srv.setup.Within R
  handlers {name : String} {handler : Handler σ} (h : srv.handlers.get? name = some handler)
    (args : List Octets) : (handler args).Within R
  callbacks {signal : Signal} {run : Callback σ} (h : table.callback? signal = some run) :
    (run signal).Within R
  finalize : srv.finalize.Within R

section
variable {R : World σ → World σ → Prop} (hR : HasRoom R)
include hR

theorem HasRoom.refl (w : World σ) : R w w := hR.delivered rfl (.refl _)

/-- What changes neither the signals nor whether they are managed is allowed for. -/
theorem HasRoom.of_same {w w' : World σ} (hmanaged : w'.context.managed = w.context.managed)
    (hsignals : w'.process.signals = w.process.signals) : R w w' :=
  hR.delivered hmanaged (.of_eq hsignals)

theorem HasRoom.pure (a : α) : Code.Within R (pure a) := hR.refl

theorem HasRoom.throw (halt : Halt) : Code.Within R (throw halt : Code σ α) := hR.refl

theorem HasRoom.bind {code : Code σ α} {f : α → Code σ β} (h : code.Within R)
    (hf : ∀ a, (f a).Within R) : Code.Within R (code >>= f) := by
  intro w
  rw [Code.after, Code.bind_apply]
  cases hrun : code w with
  | ok a w' => exact hR.trans (h.of_ok hrun) (hf a w')
  | error halt w' => exact h.of_error hrun

theorem HasRoom.forM {xs : List α} {f : α → Code σ Unit} (h : ∀ x ∈ xs, (f x).Within R) :
    Code.Within R (xs.forM f) := by
  induction xs with
  | nil => exact hR.pure ()
  | cons x xs ih =>
    rw [List.forall_mem_cons] at h
    exact hR.bind h.1 fun _ => ih h.2

/-- Whatever may suspend or end the process, signals are delivered by it and until the process goes
on. -/
theorem HasRoom.disturb {f : Process → Process}
    (h : ∀ p : Process, p.signals.Delivered (f p).signals) : Code.Within R (Code.disturb f) := by
  intro w
  have hdelivered := (h w.process).trans (Process.delivered_resume (f w.process))
  rw [Code.after, Code.disturb]
  split
  all_goals
    next hrun =>
    split at hrun <;> cases hrun
    exact hR.delivered rfl hdelivered

theorem HasRoom.preempt : Code.Within R (Code.preempt : Code σ Unit) :=
  hR.disturb Process.delivered_preempt

theorem HasRoom.raise (signal : Signal) : Code.Within R (Code.raise signal : Code σ Unit) :=
  hR.disturb fun p => Process.delivered_deliver p signal

theorem HasRoom.receive : Code.Within R (Code.receive : Code σ (Reception Envelope)) := by
  intro w
  generalize hout : Channel.nextFrame Process.transport w.context.channel w.process = out
  obtain ⟨r, channel, process⟩ := out
  have hdelivered := Process.delivered_fetches
    ((Channel.fetches_iff Process.transport_lawful).2 hout)
  have hend : Code.receive.after w = w.holding channel process := by
    rw [Code.after, Code.receive_apply hout]
    cases r.toEnvelope <;> rfl
  rw [hend]
  exact hR.delivered rfl hdelivered

/-! ## A turn of the loop -/

theorem HasRoom.pendingQuit : Code.Within R (pendingQuit : Code σ (Option Signal)) := by
  intro w
  rw [Code.after, pendingQuit_apply]
  cases hmanaged : w.context.managed with
  | true => exact hR.taken hmanaged hmanaged rfl
  | false => exact hR.refl w

theorem HasRoom.checkQuit : Code.Within R (checkQuit : Code σ (Option LoopExit)) := by
  refine hR.bind hR.pendingQuit fun request => ?_
  cases request with
  | some signal => exact hR.pure _
  | none => exact Code.Within.get_bind fun w => hR.refl w

variable {srv : Server σ} {table : SignalTable (Callback σ)} (hsrv : ServerWithin R srv table)
include hsrv

theorem HasRoom.callBack (signal : Signal) : (callBack table signal).Within R := by
  unfold Loop.callBack
  split
  · next run hget => exact hsrv.callbacks hget
  · exact hR.pure ()

theorem HasRoom.dispatch (e : Envelope) : (dispatch srv.handlers e).Within R := by
  refine hR.bind (fun w => hR.of_same rfl rfl) fun _ => ?_
  split
  · exact hR.throw _
  · next handler hget => exact hsrv.handlers hget _

theorem HasRoom.runDeferred : (runDeferred table).Within R := by
  unfold Loop.runDeferred
  refine Code.Within.get_bind fun w => ?_
  split
  · next hmanaged =>
    rw [Code.after, Code.bind_apply, Code.takePending_apply]
    refine hR.trans (hR.taken hmanaged ?_ ?_) (hR.forM (fun signal _ => hR.callBack hsrv signal) _)
    · exact hmanaged
    · rfl
  · exact hR.refl w

theorem HasRoom.attend : (attend srv.handlers).Within R := by
  refine hR.bind hR.receive fun r => ?_
  split
  · next e => exact hR.bind (hR.dispatch hsrv e) fun _ => hR.pure _
  · exact hR.bind hR.pendingQuit fun _ => hR.pure _
  · exact hR.pure _
  · refine hR.bind hR.pendingQuit fun request => ?_
    split
    · exact hR.pure _
    · exact hR.throw _
  · exact hR.throw _

theorem HasRoom.pass : (pass srv.handlers table).Within R := by
  refine hR.bind (hR.attend hsrv) fun exit => ?_
  cases exit with
  | some exit => exact hR.pure _
  | none => exact hR.bind (hR.runDeferred hsrv) fun _ => hR.checkQuit

theorem HasRoom.within (turns : Nat) : (within srv.handlers table turns).Within R := by
  induction turns with
  | zero => exact hR.throw _
  | succ turns ih =>
    refine hR.bind (hR.pass hsrv) fun exit => ?_
    cases exit with
    | some exit => exact hR.pure _
    | none => exact ih

/-- **The setup, the loop and the last hook** do no more than what a relation has room for which the
code of the server is within. -/
theorem HasRoom.hooked : (hooked srv table).Within R := by
  have hrun : Code.Within R (do srv.setup; run srv.handlers table : Code σ LoopExit) :=
    hR.bind hsrv.setup fun _ => Code.Within.get_bind fun w => hR.within hsrv _ w
  have hlast : ∀ r, (finalizing srv r).Within R := by
    intro r w
    rw [Code.after, finalizing]
    cases hfinal : srv.finalize w with
    | ok a w' => cases r <;> exact hsrv.finalize.of_ok hfinal
    | error halt w' =>
      cases halt with
      | failed e => cases r <;> exact hsrv.finalize.of_error hfinal
      | panicked | ended | waiting => exact hsrv.finalize.of_error hfinal
  intro w
  rw [Code.after, Loop.hooked]
  cases hfirst : (do srv.setup; run srv.handlers table : Code σ LoopExit) w with
  | ok exit w' => exact hR.trans (hrun.of_ok hfirst) (hlast _ w')
  | error halt w' =>
    cases halt with
    | failed e => exact hR.trans (hrun.of_error hfirst) (hlast _ w')
    | panicked | ended | waiting => exact hrun.of_error hfirst

/-! ## At every stage -/

/-- **A step** does no more either. -/
theorem Leads.within {x y : Stage σ} (h : Leads srv table x y) : R x.world y.world := by
  have hlook {w w' : World σ} {request : Option Signal} (h : Loop.pendingQuit w = .ok request w') :
      R w w' := hR.pendingQuit.of_ok h
  have hread {w : World σ} {channel : Channel} {process : Process} {r : Option Reading}
      (h : w.process.readOn Channel.chunkSize = (r, process)) :
      R w (w.holding channel process) := by
    have hdelivered := Process.delivered_readOn w.process Channel.chunkSize
    rw [h] at hdelivered
    exact hR.delivered rfl hdelivered
  cases h with
  | answered => exact hR.of_same rfl rfl
  | unanswered | item | interrupted | waits | unmanaged | looks => exact hR.refl _
  | preempted w => exact hR.delivered rfl (Process.delivered_preempt w.process)
  | dry h | broken h | onward h => exact hread h
  | closed h | excused _ h | failed _ h => exact hlook h
  | collected h => exact hR.taken h h rfl
  | again h | stops h => exact hR.checkQuit.of_ok h
  | prepared h => exact hsrv.setup.of_ok h
  | setupHalts h => exact hsrv.setup.of_error h
  | handled h => exact (hR.dispatch hsrv _).of_ok h
  | handlingHalts h => exact (hR.dispatch hsrv _).of_error h
  | called h => exact (hR.callBack hsrv _).of_ok h
  | callingHalts h => exact (hR.callBack hsrv _).of_error h

/-- **Whatever stage is reached**, no more has been done on the way. -/
theorem Reaches.within {x y : Stage σ} (h : Reaches srv table x y) : R x.world y.world := by
  induction h with
  | refl => exact hR.refl _
  | @next y _ ih =>
    cases hleft : y.isLeft with
    | false => exact hR.trans ih (Leads.within hR hsrv (next_leads hleft))
    | true =>
      cases y with
      | left r => exact ih
      | _ => cases hleft

end

end Loop

end Overseer
