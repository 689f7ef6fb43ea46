import Mathlib.Data.List.Basic
import Mathlib.Logic.Relation
import Overseer.Proofs.Loop.TakeOver
import Overseer.Proofs.Loop.Within

/-!
# Signals are put back

A manager remembers how each signal was bound before it bound it, and puts that back when it is
given up (`SignalManager.Remembers.restore_eq`). The code that runs meanwhile may do what it likes
with the signals that can be trapped; it may have managers of its own, one inside the other
(`HasRoom.managing`). As long as it leaves the others alone (`KeepsUntrapped`), all signals are as
they were when the code is left, by returning or by unwinding (`managing_restores`).

A run with managed signals is such code under such a manager. A run whose signals are not managed
does nothing at all to them, at no stage: what happens to them is that signals are delivered and
that the code of the server runs (`Stirs`).
-/

namespace Overseer

namespace SignalManager

variable {bound : Signal → Disposition} {m : SignalManager} {s : SignalState} {signal : Signal}

/-- What is put back: for each signal the first disposition that is remembered of it. -/
theorem restore_dispositions (m : SignalManager) (s : SignalState) (signal : Signal) :
    (m.restore s).2.dispositions signal =
      (m.saved.lookup signal).getD (s.dispositions signal) := by
  show (m.saved.reverse.foldl (fun s x => s.bind x.1 x.2) s).dispositions signal = _
  rw [List.foldl_reverse]
  induction m.saved with
  | nil => rfl
  | cons x saved ih =>
    obtain ⟨other, d⟩ := x
    rw [List.foldr_cons, List.lookup_cons]
    show (if signal = other then d else _) = _
    by_cases heq : signal = other
    · rw [if_pos heq, beq_iff_eq.2 heq]
      rfl
    · rw [if_neg heq, beq_false_of_ne heq]
      exact ih

/-- A manager remembers how the signals that can be trapped were bound. -/
def Remembers (m : SignalManager) (bound : Signal → Disposition) : Prop :=
  m.saved = (Signal.all.filter Signal.trappable).map fun signal => (signal, bound signal)

theorem Remembers.lookup_of_trappable (hm : m.Remembers bound) (h : signal.trappable = true) :
    m.saved.lookup signal = some (bound signal) := by
  rw [hm]
  exact List.lookup_graph bound ((mem_trappable signal).2 h)

theorem Remembers.lookup_of_not_trappable (hm : m.Remembers bound)
    (h : signal.trappable = false) : m.saved.lookup signal = none := by
  rw [hm, List.lookup_eq_none_iff]
  intro x hx
  obtain ⟨other, hother, rfl⟩ := List.mem_map.1 hx
  rw [mem_trappable] at hother
  refine bne_iff_ne.2 fun heq => ?_
  rw [heq, hother] at h
  cases h

/-- A manager that remembers anything does the same when it is given up. -/
theorem Remembers.release_eq (hm : m.Remembers bound) (s : SignalState) :
    m.release s = (m.restore s).2 := by
  have hsome : m.saved.isEmpty = false := by
    rw [hm, List.isEmpty_map]
    decide
  rw [release, hsome]
  rfl

/-- **A manager puts everything back**, whatever has become of the signals that can be trapped, and
no descriptor is shut any more. -/
theorem Remembers.restore_eq (hm : m.Remembers bound)
    (hs : ∀ signal, signal.trappable = false → s.dispositions signal = bound signal) :
    (m.restore s).2.dispositions = bound ∧ (m.restore s).2.wakeup = none := by
  refine ⟨funext fun signal => ?_, rfl⟩
  rw [restore_dispositions]
  cases htrap : signal.trappable with
  | true => rw [hm.lookup_of_trappable htrap, Option.getD_some]
  | false => rw [hm.lookup_of_not_trappable htrap, Option.getD_none, hs signal htrap]

/-- Giving a manager up does nothing to the signals that cannot be trapped. -/
theorem Remembers.release_keeps (hm : m.Remembers bound) (s : SignalState)
    (h : signal.trappable = false) : (m.release s).dispositions signal = s.dispositions signal := by
  rw [hm.release_eq, restore_dispositions, hm.lookup_of_not_trappable h, Option.getD_none]

end SignalManager

/-- Whether a halt leaves the code that it occurs in, by returning or by unwinding. A signal that
ends the process does not, nor does a wait for ever. -/
def Halt.leaves : Halt → Bool
  | .failed _ | .panicked _ => true
  | .ended _ | .waiting => false

namespace Loop

open SignalManager

variable {σ α β : Type}

/-! ## What is left alone -/

/-- The signals that cannot be trapped stay bound as they are. -/
def KeepsUntrapped (w w' : World σ) : Prop :=
  ∀ signal, signal.trappable = false →
    w'.process.signals.dispositions signal = w.process.signals.dispositions signal

theorem keepsUntrapped_hasRoom : HasRoom (KeepsUntrapped (σ := σ)) where
  trans h h' signal htrap := (h' signal htrap).trans (h signal htrap)
  delivered _ h signal _ := congrFun h.dispositions_eq signal
  taken _ _ hbound signal _ := congrFun hbound signal

/-- A loop that does not manage its signals does not come to manage them. -/
def StaysUnmanaged (w w' : World σ) : Prop :=
  w.context.managed = false → w'.context.managed = false

theorem staysUnmanaged_hasRoom : HasRoom (StaysUnmanaged (σ := σ)) where
  trans h h' hmanaged := h' (h hmanaged)
  delivered hsame _ hmanaged := hsame.trans hmanaged
  taken h _ _ hmanaged := by
    rw [h] at hmanaged
    cases hmanaged

/-- A relation has room for whatever is done to the signals that can be trapped. -/
def HasRoomForTraps (R : World σ → World σ → Prop) : Prop :=
  ∀ (w : World σ) (f : SignalState → SignalState),
    (∀ s signal, signal.trappable = false → (f s).dispositions signal = s.dispositions signal) →
      R w (withSignals w f)

theorem keepsUntrapped_hasRoomForTraps : HasRoomForTraps (KeepsUntrapped (σ := σ)) :=
  fun w _ h => h w.process.signals

theorem staysUnmanaged_hasRoomForTraps : HasRoomForTraps (StaysUnmanaged (σ := σ)) :=
  fun _ _ _ => id

/-! ## Having a manager -/

/-- Runs code, and gives a manager up when the code returns or unwinds. -/
def givingUp (m : SignalManager) (code : Code σ α) : Code σ α := fun w =>
  match code w with
  | .ok a w => .ok a (withSignals w m.release)
  | .error (.failed e) w => .error (.failed e) (withSignals w m.release)
  | .error (.panicked p) w => .error (.panicked p) (withSignals w m.release)
  | .error halt w => .error halt w

/-- Runs code that has a manager of its own. -/
def managing (plan : List (Signal × Disposition)) (code : Code σ α) : Code σ α := do
  Code.modifySignals fun s => ((), s.clear)
  let m ← bindAll plan (Signal.all.filter Signal.trappable) {}
  givingUp m code

variable {bound : Signal → Disposition} {plan : List (Signal × Disposition)}
  {signals : List Signal} {table : SignalTable (Callback σ)} {m m' : SignalManager}
  {code : Code σ α} {w w' : World σ}

/-- Putting the signals back is giving the manager up, in whatever way the run is left. -/
theorem restoring_eq (hm : m.Remembers bound) (code : Code σ LoopExit) :
    restoring m code = givingUp m code := by
  have hrestore : (fun s => (m.restore s).2) = m.release := funext fun s => (hm.release_eq s).symm
  funext w
  rw [restoring, givingUp, hrestore]
  cases code w with
  | ok => rfl
  | error halt => cases halt <;> rfl

/-- A point where signals may arrive binds nothing anew. -/
theorem preempt_dispositions (h : (Code.preempt : Code σ Unit) w = .ok () w') :
    w'.process.signals.dispositions = w.process.signals.dispositions := by
  have hsame : HasRoom fun w w' : World σ =>
      w'.process.signals.dispositions = w.process.signals.dispositions :=
    ⟨fun h h' => h'.trans h, fun _ h => h.dispositions_eq, fun _ _ h => h⟩
  exact hsame.preempt.of_ok h

/-- Binding signals, one after the other, remembers how each was bound before. -/
theorem bindAll_saved (hdistinct : signals.Nodup) (h : bindAll plan signals m w = .ok m' w') :
    m'.saved =
      m.saved ++ signals.map fun signal => (signal, w.process.signals.dispositions signal) := by
  induction signals generalizing m w with
  | nil =>
    cases h
    exact (List.append_nil _).symm
  | cons signal signals ih =>
    rw [List.nodup_cons] at hdistinct
    rw [bindAll, Code.bind_apply, Code.modifySignals_apply] at h
    simp only at h
    rw [Code.bind_apply] at h
    split at h
    · next w₁ hpreempt =>
      -- a signal is bound once, so the others are found as they were
      have hother : ∀ other ∈ signals, (other, w₁.process.signals.dispositions other) =
          (other, w.process.signals.dispositions other) := by
        intro other hmem
        have hne : other ≠ signal := fun heq => hdistinct.1 (heq ▸ hmem)
        rw [preempt_dispositions hpreempt]
        exact congrArg (Prod.mk other) (if_neg hne)
      rw [ih hdistinct.2 h, List.map_congr_left hother]
      exact List.append_assoc _ _ _
    · cases h

/-- A manager that has bound all signals remembers all. -/
theorem bindAll_remembers
    (h : bindAll plan (Signal.all.filter Signal.trappable) {} w = .ok m w') :
    m.Remembers w.process.signals.dispositions :=
  bindAll_saved (by decide) h

theorem takeOver_remembers (h : takeOver table w = .ok m w') :
    m.Remembers w.process.signals.dispositions := by
  unfold takeOver at h
  rw [Code.bind_apply, Code.modifySignals_apply] at h
  simp only at h
  rw [Code.bind_apply] at h
  split at h
  · next m₁ w₁ hbind =>
    rw [Code.get_bind, Code.bind_apply, Code.modifySignals_apply] at h
    simp only at h
    rw [Code.bind_apply] at h
    split at h <;> cases h
    have hremembers := bindAll_remembers hbind
    exact hremembers
  · cases h

section
variable {R : World σ → World σ → Prop} (hR : HasRoom R) (htraps : HasRoomForTraps R)

include htraps in
/-- Changing what the handlers of signals have left binds nothing. -/
theorem HasRoomForTraps.modifySignals {f : SignalState → SignalState}
    (h : ∀ s, (f s).dispositions = s.dispositions) :
    (Code.modifySignals fun s => ((), f s) : Code σ Unit).Within R :=
  fun w => htraps w f fun s signal _ => congrFun (h s) signal

include hR htraps

theorem HasRoom.bindAll (h : ∀ signal ∈ signals, signal.trappable = true) (m : SignalManager) :
    (bindAll plan signals m : Code σ SignalManager).Within R := by
  induction signals generalizing m with
  | nil => exact hR.pure m
  | cons signal signals ih =>
    rw [List.forall_mem_cons] at h
    have hbind : (Code.modifySignals (m.replace signal (planned plan signal)) :
        Code σ SignalManager).Within R := by
      refine fun w => htraps w (fun s => s.bind signal (planned plan signal)) ?_
      intro s other htrap
      refine if_neg fun heq => ?_
      rw [heq, h.1] at htrap
      cases htrap
    exact hR.bind hbind fun m => hR.bind hR.preempt fun _ => ih h.2 m

theorem HasRoom.givingUp (hm : m.Remembers bound) (hcode : code.Within R) :
    (givingUp m code).Within R := by
  have hrelease (w : World σ) : R w (withSignals w m.release) :=
    htraps w m.release fun s _ htrap => hm.release_keeps s htrap
  intro w
  rw [Code.after, Loop.givingUp]
  cases hrun : code w with
  | ok a w' => exact hR.trans (hcode.of_ok hrun) (hrelease w')
  | error halt w' =>
    have hbefore := hcode.of_error hrun
    cases halt with
    | failed | panicked => exact hR.trans hbefore (hrelease w')
    | ended | waiting => exact hbefore

/-- **Code that has a manager of its own** does no more than what a relation has room for which the
code under the manager is within. -/
theorem HasRoom.managing (plan : List (Signal × Disposition)) (hcode : code.Within R) :
    (managing plan code).Within R := by
  refine hR.bind (htraps.modifySignals fun _ => rfl) fun _ w => ?_
  have hbind : (Loop.bindAll plan (Signal.all.filter Signal.trappable) {} :
      Code σ SignalManager).Within R :=
    hR.bindAll htraps (fun signal h => (mem_trappable signal).1 h) {}
  rw [Code.after, Code.bind_apply]
  cases hrun : Loop.bindAll plan (Signal.all.filter Signal.trappable) {} w with
  | ok m w' =>
    exact hR.trans (hbind.of_ok hrun) (hR.givingUp htraps (bindAll_remembers hrun) hcode w')
  | error halt w' => exact hbind.of_error hrun

theorem HasRoom.takeOver (table : SignalTable (Callback σ)) : (takeOver table).Within R := by
  refine hR.bind (htraps.modifySignals fun _ => rfl) fun _ => ?_
  refine hR.bind (hR.bindAll htraps (fun signal h => (mem_trappable signal).1 h) {}) fun m => ?_
  refine Code.Within.get_bind fun w => ?_
  have hregister : (Code.modifySignals fun s => ((), s.setWakeup (some w.process.socket)) :
      Code σ Unit).Within R := htraps.modifySignals fun _ => rfl
  exact hR.bind hregister (fun _ => hR.bind hR.preempt fun _ => hR.pure m) w

end

/-! ## Leaving -/

/-- The world in which a run is left, if it is. -/
def leftIn? : EStateM.Result Halt (World σ) α → Option (World σ)
  | .ok _ w => some w
  | .error halt w => if halt.leaves then some w else none

/-- Code that is not left but by coming to its end. -/
def OnlyEnds (code : Code σ α) : Prop :=
  ∀ w halt w', code w = .error halt w' → halt.leaves = false

theorem OnlyEnds.pure (a : α) : OnlyEnds (pure a : Code σ α) := by
  intro w halt w' h
  cases h

theorem OnlyEnds.modifySignals (f : SignalState → α × SignalState) :
    OnlyEnds (Code.modifySignals f : Code σ α) := by
  intro w halt w' h
  rw [Code.modifySignals_apply] at h
  cases h

theorem OnlyEnds.bind {f : α → Code σ β} (h : OnlyEnds code) (hf : ∀ a, OnlyEnds (f a)) :
    OnlyEnds (code >>= f) := by
  intro w halt w' hrun
  rw [Code.bind_apply] at hrun
  split at hrun
  · exact hf _ _ halt w' hrun
  · next hfirst =>
    cases hrun
    exact h w halt w' hfirst

theorem OnlyEnds.preempt : OnlyEnds (Code.preempt : Code σ Unit) := by
  intro w halt w' h
  rw [Code.preempt, Code.disturb] at h
  split at h <;> cases h
  rw [Code.haltOf]
  split <;> rfl

theorem OnlyEnds.bindAll (plan : List (Signal × Disposition)) (signals : List Signal)
    (m : SignalManager) : OnlyEnds (bindAll plan signals m : Code σ SignalManager) := by
  induction signals generalizing m with
  | nil => exact .pure m
  | cons signal signals ih => exact .bind (.modifySignals _) fun m => .bind .preempt fun _ => ih m

theorem OnlyEnds.takeOver (table : SignalTable (Callback σ)) : OnlyEnds (takeOver table) := by
  refine .bind (.modifySignals _) fun _ => .bind (.bindAll _ _ _) fun m w halt w' h => ?_
  rw [Code.get_bind] at h
  exact OnlyEnds.bind (.modifySignals _) (fun _ => .bind .preempt fun _ => .pure m) w halt w' h

/-- Code that gives a manager up is left with the signals as that manager leaves them. -/
theorem leftIn_givingUp (h : leftIn? (givingUp m code w) = some w') :
    w' = withSignals (code.after w) m.release := by
  rw [givingUp] at h
  rw [Code.after]
  cases hrun : code w with
  | ok a w₁ =>
    rw [hrun] at h
    cases h
    rfl
  | error halt w₁ =>
    rw [hrun] at h
    cases halt <;> cases h
    all_goals rfl

/-- **All signals are put back** when code is left that has a manager of all signals and leaves
those alone that cannot be trapped. -/
theorem givingUp_restores (hm : m.Remembers bound)
    (hbound : ∀ signal, signal.trappable = false →
      w.process.signals.dispositions signal = bound signal)
    (hcode : code.Within KeepsUntrapped) (h : leftIn? (givingUp m code w) = some w') :
    w'.process.signals.dispositions = bound ∧ w'.process.signals.wakeup = none := by
  rw [leftIn_givingUp h]
  show (m.release _).dispositions = bound ∧ (m.release _).wakeup = none
  rw [hm.release_eq]
  exact hm.restore_eq fun signal htrap => (hcode w signal htrap).trans (hbound signal htrap)

/-- **Code that has a manager of its own puts all signals back.** -/
theorem managing_restores (hcode : code.Within KeepsUntrapped)
    (h : leftIn? (managing plan code w) = some w') :
    w'.process.signals.dispositions = w.process.signals.dispositions ∧
      w'.process.signals.wakeup = none := by
  rw [managing, Code.bind_apply, Code.modifySignals_apply] at h
  simp only at h
  rw [Code.bind_apply] at h
  split at h
  · next m w₁ hbind =>
    have hkept := (keepsUntrapped_hasRoom.bindAll keepsUntrapped_hasRoomForTraps
      (fun signal h => (mem_trappable signal).1 h) {}).of_ok hbind
    have hremembers := bindAll_remembers hbind
    exact givingUp_restores hremembers hkept hcode h
  · next halt w₁ hbind =>
    rw [leftIn?, OnlyEnds.bindAll _ _ _ _ _ _ hbind] at h
    cases h

/-! ## Serving -/

section
variable (srv : Server σ) (table : SignalTable (Callback σ))

/-- What happens to the signals of a process if a loop does nothing to them: a signal is delivered,
or the code of the server runs. -/
inductive Stirs : SignalState → SignalState → Prop
  | delivered (s : SignalState) (signal : Signal) : Stirs s (s.deliver signal).2
  | setup (w : World σ) : Stirs w.process.signals (srv.setup.after w).process.signals
  | handled {name : String} {handler : Handler σ} (h : srv.handlers.get? name = some handler)
      (args : List Octets) (w : World σ) :
      Stirs w.process.signals ((handler args).after w).process.signals
  | called {signal : Signal} {run : Callback σ} (h : table.callback? signal = some run)
      (w : World σ) : Stirs w.process.signals ((run signal).after w).process.signals
  | finalized (w : World σ) : Stirs w.process.signals (srv.finalize.after w).process.signals

/-- What a loop leaves to others as long as it does not manage its signals. -/
def LeavesToOthers (w w' : World σ) : Prop :=
  w.context.managed = false → w'.context.managed = false ∧
    Relation.ReflTransGen (Stirs srv table) w.process.signals w'.process.signals

end

variable {srv : Server σ}

theorem leavesToOthers_hasRoom : HasRoom (LeavesToOthers srv table) where
  trans h h' hmanaged := by
    obtain ⟨hmanaged', hfirst⟩ := h hmanaged
    exact (h' hmanaged').imp_right hfirst.trans
  delivered {w w'} hsame h hmanaged := by
    refine ⟨hsame.trans hmanaged, ?_⟩
    obtain ⟨signals, heq⟩ := h
    rw [← heq]
    clear heq
    generalize w.process.signals = s
    induction signals generalizing s with
    | nil => exact .refl
    | cons signal signals ih => exact .head (.delivered s signal) (ih _)
  taken h _ _ hmanaged := by
    rw [h] at hmanaged
    cases hmanaged

theorem leavesToOthers_server (h : ServerWithin StaysUnmanaged srv table) :
    ServerWithin (LeavesToOthers srv table) srv table where
  setup w hmanaged := ⟨h.setup w hmanaged, .single (.setup w)⟩
  handlers hget args w hmanaged := ⟨h.handlers hget args w hmanaged, .single (.handled hget args w)⟩
  callbacks hget w hmanaged := ⟨h.callbacks hget w hmanaged, .single (.called hget w)⟩
  finalize w hmanaged := ⟨h.finalize w hmanaged, .single (.finalized w)⟩

/-- **Signals are put back.** However a run with managed signals is left, by returning or by
unwinding, every signal is bound as it was before, and no descriptor is shut any more when the
process is asked to quit; all that is asked of the code of the server is that it leaves alone the
signals that cannot be trapped. If the signals are not managed, all that happens to them in a run,
up to any stage of it and to its end, is that signals are delivered and that the code of the server
runs. -/
theorem signals_put_back (srv : Server σ) (config : Config) (server : σ) (process : Process) :
    (config.manageSignals = true →
      ServerWithin KeepsUntrapped srv (tableOf srv config server) →
        ∀ w, leftIn? (serve srv config (start server config process)) = some w →
          w.process.signals.dispositions = process.signals.dispositions ∧
            w.process.signals.wakeup = none) ∧
    (config.manageSignals = false →
      ServerWithin StaysUnmanaged srv (tableOf srv config server) →
        (∀ x, Reaches srv (tableOf srv config server) (.setup (start server config process)) x →
          Relation.ReflTransGen (Stirs srv (tableOf srv config server)) process.signals
            x.world.process.signals) ∧
        Relation.ReflTransGen (Stirs srv (tableOf srv config server)) process.signals
          ((serve srv config).after (start server config process)).process.signals) := by
  refine ⟨fun hmanaged hsrv w hleft => ?_, fun hmanaged hsrv => ⟨fun x hx => ?_, ?_⟩⟩
  · rw [serve_of_managed hmanaged, Code.bind_apply] at hleft
    split at hleft
    · next m w₀ htake =>
      have hkept : KeepsUntrapped (start server config process) w₀ :=
        (keepsUntrapped_hasRoom.takeOver keepsUntrapped_hasRoomForTraps _).of_ok htake
      have hremembers := takeOver_remembers htake
      rw [restoring_eq hremembers] at hleft
      exact givingUp_restores hremembers hkept (keepsUntrapped_hasRoom.hooked hsrv) hleft
    · next halt w₀ htake =>
      rw [leftIn?, OnlyEnds.takeOver _ _ _ _ htake] at hleft
      cases hleft
  · exact (hx.within leavesToOthers_hasRoom (leavesToOthers_server hsrv) hmanaged).2
  · rw [Code.after, serve_of_unmanaged hmanaged]
    have hwithin := leavesToOthers_hasRoom.hooked (leavesToOthers_server hsrv)
    exact (hwithin (start server config process) hmanaged).2

/-! A handler has a manager of its own, and panics. -/

/-- The server. It looks for a request to quit before it panics. -/
def reckless : Server Unit where
  name _ := "reckless"
  handlers := .ofList [("go", fun _ => managing [(.usr1, .quit), (.hup, .default)]
    (Code.raise .usr1 >>= fun _ => Code.panic (.text "boom")))]

/-- Its process when it begins to serve: its signals are bound in several ways, and a message
comes. -/
def prebound : Process where
  signals := { dispositions := fun
    | .usr1 => .foreign 7
    | .hup => .deferred
    | .segv => .foreign 8
    | .pipe => .ignore
    | _ => .default }
  coming := [.arrive ⟨[1, 0, 0, 0, 0, 8, 0, 1, 0, 0, 0, 2, 103, 111], [], false⟩]

/-- What it does to the world is what signals do that are delivered, and what is done to signals
that can be trapped. -/
theorem reckless_within {R : World Unit → World Unit → Prop} (hR : HasRoom R)
    (htraps : HasRoomForTraps R) (manageSignals : Bool) :
    ServerWithin R reckless (tableOf reckless { manageSignals } ()) where
  setup := hR.pure ()
  handlers {name handler} h args := by
    have hone : reckless.handlers = Handlers.on {} "go" _ := rfl
    rw [hone, Handlers.get?_on] at h
    split at h
    · cases h
      exact hR.managing htraps _ (hR.bind (hR.raise .usr1) fun _ => hR.throw _)
    · cases h
  callbacks {signal run} h := by
    cases signal <;> cases h
  finalize := hR.pure ()

theorem signals_put_back_from_a_panic :
    (∃ w, serve reckless {} (start () {} prebound) = .error (.panicked (.text "boom")) w ∧
      w.process.signals.dispositions = prebound.signals.dispositions ∧
        w.process.signals.wakeup = none) ∧
    Relation.ReflTransGen (Stirs reckless (tableOf reckless { manageSignals := false } ()))
      prebound.signals
      ((serve reckless { manageSignals := false }).after
        (start () { manageSignals := false } prebound)).process.signals := by
  obtain ⟨hrestores, -⟩ := signals_put_back reckless {} () prebound
  obtain ⟨-, hleaves⟩ := signals_put_back reckless { manageSignals := false } () prebound
  refine ⟨?_, (hleaves rfl (reckless_within staysUnmanaged_hasRoom
    staysUnmanaged_hasRoomForTraps _)).2⟩
  have hhalts : (match serve reckless {} (start () {} prebound) with
      | .ok .. => none
      | .error halt _ => some halt) = some (.panicked (.text "boom")) := by decide +kernel
  have hserver := reckless_within keepsUntrapped_hasRoom keepsUntrapped_hasRoomForTraps true
  cases hrun : serve reckless {} (start () {} prebound) with
  | ok exit w =>
    rw [hrun] at hhalts
    cases hhalts
  | error halt w =>
    rw [hrun] at hhalts
    cases hhalts
    exact ⟨w, rfl, hrestores rfl hserver w (by rw [hrun]; rfl)⟩

end Loop

end Overseer
