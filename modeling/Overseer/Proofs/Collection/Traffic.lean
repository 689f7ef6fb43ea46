import Overseer.Collection.Basic
import Overseer.Proofs.Supervisor.Onward

/-!
# Traffic on a collection

Any number of callers share a collection. `Traffic` is a collection with all the calls that were
ever begun and what is left of each; a `Turn` begins a call, has one go on by a section or a wait,
or has something happen to the host. A list of turns is one way in which the calls come between each
other, so what holds of every list holds of every interleaving.

What becomes of supervisors is put on record by looking at the site before and after a turn, so the
record does not depend on what a call means to do.
-/

namespace Overseer

variable {η σ : Type} (H : Host η)

namespace Site

/-- Whether a handle is stored under some key. -/
def isStored (s : Site η σ) (h : Handle) : Bool :=
  s.collection.entries.any fun entry => entry.2 == h

/-- Whether the supervisor of a handle has stopped its server. -/
def isStopped (s : Site η σ) (h : Handle) : Bool :=
  (s.collection.slot? h).any fun slot => slot.supervisor.life.isStopped

/-- How often such an event of a key was announced. -/
def announced (s : Site η σ) (kind : EventKind) (key : String) : Nat :=
  s.events.countP fun e => e.kind == kind && e.server == some key

/-- The handles that are stored on one site and no more on another. -/
def removedBy (s s' : Site η σ) : List Handle :=
  (s.collection.entries.map Prod.snd).filter fun h => !s'.isStored h

/-- The handles whose supervisors have stopped their servers on another site, but not on this. -/
def stoppedBy (s s' : Site η σ) : List Handle :=
  (List.range s'.collection.slots.length).filter fun h => !s.isStopped h && s'.isStopped h

end Site

namespace Collection

/-- What a caller can do with a collection. -/
inductive Call (η σ : Type) where
  | lookupOrAdd (key : String) (factory : Factory η σ)
  | delete (key : String)
  | cleanIdle
  | cleanup
  /-- Does some operations with the supervisor of a handle, which is locked meanwhile. -/
  | use (handle : Handle) (operations : List (Supervisor.Operation η))

/-- What comes of a call. -/
inductive Answer where
  | handle (result : Except SupervisorError Handle)
  | tier (result : Except SupervisorError (Option StopTier))
  | keys (result : Except Panic (List String))
  | done

namespace Call

/-- What is done for a call. -/
def deed : Call η σ → LongDeed η σ Answer
  | lookupOrAdd key factory => do pure (.handle (← Collection.lookupOrAdd H key factory))
  | delete key => do pure (.tier (← Collection.delete H key))
  | cleanIdle => do pure (.keys (← Collection.cleanIdle H))
  | cleanup => do
    Collection.cleanup H
    pure .done
  | use h operations => do
    let _ ← LongDeed.onHeld H h (operations.forM (Supervisor.Operation.act H))
    pure .done

/-- A factory that a call brings along does not announce what collections announce. -/
def Discreet : Call η σ → Prop
  | lookupOrAdd _ factory => ∀ host, ∀ e ∈ (factory host).2.1, e.kind.isOfCollection = false
  | _ => True

end Call

/-- A call that was begun. -/
structure Ongoing (η σ : Type) where
  call : Call η σ
  /-- What is left to do. -/
  rest : LongDeed η σ Answer

/-- Whether a call is over: it has answered, or it has panicked before it could. -/
def Ongoing.isOver (c : Ongoing η σ) : Bool :=
  match c.rest with
  | .done _ | .wait (.panicked _) (.done _) => true
  | _ => false

/-- A collection with the calls of those who share it. -/
structure Traffic (η σ : Type) where
  site : Site η σ
  /-- All calls, in the order in which they were begun. -/
  calls : List (Ongoing η σ) := []
  /-- Which call has taken out which handle. -/
  removed : List (Nat × Handle) := []
  /-- During which call the supervisor of which handle stopped its server. -/
  stopped : List (Nat × Handle) := []

/-- What happens next. -/
inductive Turn (η σ : Type) where
  /-- A call is begun. -/
  | begin (call : Call η σ)
  /-- A call goes on, by one section or by a wait that is granted. -/
  | goOn (i : Nat)
  /-- Something happens to the host. -/
  | host (change : η → η)

namespace Traffic

/-- An empty collection that nobody has used yet. It announces what it does or not. -/
def opening (announces : Bool) (host : η) : Traffic η σ :=
  { site := { collection := { announces }, host } }

/-- The traffic when a call has gone on. -/
def record (t : Traffic η σ) (i : Nat) (c : Ongoing η σ) (site : Site η σ) : Traffic η σ :=
  { site
    calls := t.calls.set i c
    removed := t.removed ++ (t.site.removedBy site).map fun h => (i, h)
    stopped := t.stopped ++ (t.site.stoppedBy site).map fun h => (i, h) }

/-- The traffic after a turn. A call that is over or has to wait does not go on. -/
def take (t : Traffic η σ) : Turn η σ → Traffic η σ
  | .begin call => { t with calls := t.calls ++ [{ call, rest := call.deed H }] }
  | .host change => { t with site := { t.site with host := change t.site.host } }
  | .goOn i =>
    match t.calls[i]? with
    | none => t
    | some c =>
      match c.rest with
      | .done _ => t
      | .step change next => t.record i { c with rest := next t.site } (change t.site)
      | .wait what next =>
        match Site.grant H what t.site with
        | none => t
        | some site => t.record i { c with rest := next } site

/-- The traffic after some turns. -/
def play (t : Traffic η σ) (turns : List (Turn η σ)) : Traffic η σ := turns.foldl (take H) t

/-- No call is in progress. -/
def Quiet (t : Traffic η σ) : Prop := ∀ c ∈ t.calls, c.isOver = true

end Traffic

end Collection

end Overseer
