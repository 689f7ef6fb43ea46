import Overseer.Supervisor.Basic

/-!
# Collections of supervisors

A `Collection` keeps supervisors under keys. Each supervisor that was ever stored has a slot, and a
`Handle` on the slot stays good when its key is gone, for a caller may still have it. Who uses a
supervisor for some time locks its slot meanwhile, and what is locked is never cleaned for being
idle.

The operations run on a `Site`: the collection, its host and what has been announced. They are made
of sections that nothing else comes between (`Deed`): to look a key up, or store a new supervisor
under it (`place`); to take entries out (`take`, `takeIdle`, `takeAll`); and to announce something.
To stop the supervisor of a slot (`stopSlot`) takes time, and so do the operations that do
(`LongDeed`). Entries are taken out before their supervisors are stopped, so whoever takes an entry
is the only one to stop it, and the collection can be used meanwhile.
-/

namespace Overseer

/-- What refers to a supervisor that is or was in a collection. -/
abbrev Handle := Nat

/-- A supervisor that callers share. -/
structure Slot (σ : Type) where
  supervisor : Supervisor σ
  /-- Whether somebody uses the supervisor at the moment. -/
  locked : Bool := false
  /-- Whether what the supervisor announces is heard. -/
  announces : Bool := true

/-- Supervisors under keys. -/
structure Collection (σ : Type) where
  /-- The handles that are stored, each under its key, in the order in which they came. -/
  entries : List (String × Handle) := []
  /-- All supervisors that were ever stored, by their handles. -/
  slots : List (Slot σ) := []
  /-- Whether the collection was cleaned up once. That ends its cleaners. -/
  cancelled : Bool := false
  /-- Whether what the collection announces is heard. -/
  announces : Bool := true

/-- A collection with its host and what has been announced. -/
structure Site (η σ : Type) where
  collection : Collection σ
  host : η
  /-- The announced events, oldest first. -/
  events : List Event := []

namespace Slot

variable {σ : Type}

/-- Whether the supervisor can be cleaned: nobody uses it, and it has been idle for long enough. -/
def isIdle (slot : Slot σ) (now : Instant) : Bool :=
  !slot.locked && match slot.supervisor.idleDeadline with
    | .ok (some deadline) => deadline ≤ now
    | _ => false

/-- The panic over an idle time that the clock cannot show. Nobody looks at it while the supervisor
is used. -/
def idlePanic? (slot : Slot σ) : Option Panic :=
  if slot.locked then none
  else match slot.supervisor.idleDeadline with
    | .error p => some p
    | .ok _ => none

end Slot

namespace Collection

variable {η σ : Type}

/-! ### Looking -/

/-- The handle that is stored under a key. -/
def handle? (c : Collection σ) (key : String) : Option Handle := c.entries.lookup key

/-- The slot of a handle. -/
def slot? (c : Collection σ) (h : Handle) : Option (Slot σ) := c.slots[h]?

/-- Whether something is stored under a key. -/
def contains (c : Collection σ) (key : String) : Bool := (c.handle? key).isSome

/-- The number of stored supervisors. -/
def size (c : Collection σ) : Nat := c.entries.length

/-- The keys in ascending order. -/
def keys (c : Collection σ) : List String := (c.entries.map Prod.fst).mergeSort fun a b => a ≤ b

/-- Whether the supervisor of an entry can be cleaned. -/
def isIdle (c : Collection σ) (now : Instant) (entry : String × Handle) : Bool :=
  (c.slot? entry.2).any fun slot => slot.isIdle now

/-- The panic over an idle time that the clock cannot show. -/
def idlePanic? (c : Collection σ) : Option Panic :=
  c.entries.findSome? fun entry => (c.slot? entry.2).bind Slot.idlePanic?

/-! ### Changing -/

/-- Puts another slot in the place of a handle. -/
def setSlot (c : Collection σ) (h : Handle) (slot : Slot σ) : Collection σ :=
  { c with slots := c.slots.set h slot }

/-- Locks or unlocks a slot. -/
def setLocked (c : Collection σ) (h : Handle) (locked : Bool) : Collection σ :=
  match c.slot? h with
  | some slot => c.setSlot h { slot with locked }
  | none => c

/-- Stores a new supervisor under a key. -/
def store (c : Collection σ) (key : String) (slot : Slot σ) : Handle × Collection σ :=
  (c.slots.length,
    { c with entries := c.entries ++ [(key, c.slots.length)], slots := c.slots ++ [slot] })

/-- Takes out the entries of some kind. -/
def extract (c : Collection σ) (p : String × Handle → Bool) :
    List (String × Handle) × Collection σ :=
  (c.entries.filter p, { c with entries := c.entries.filter fun entry => !p entry })

end Collection

/-- What operations on a collection wait for. -/
inductive Wait where
  /-- The clock comes to a point. -/
  | clock (time : Instant)
  /-- Nobody uses the supervisor of a handle any more. Who has waited for that has locked it. -/
  | lock (handle : Handle)
  /-- Nothing: the operation has panicked, and does not go on. -/
  | panicked (panic : Panic)
  deriving DecidableEq

/-- What is done to a collection at once, with its answer. -/
abbrev Deed (η σ α : Type) := StateM (Site η σ) α

/-- What is done to a collection over some time, with its answer. -/
abbrev LongDeed (η σ α : Type) := Activity (Site η σ) Wait α

namespace Site

variable {η σ : Type}

/-- What the supervisor of a handle works on. -/
def scene? (s : Site η σ) (h : Handle) : Option (Scene η σ) :=
  (s.collection.slot? h).map fun slot => { supervisor := slot.supervisor, host := s.host }

/-- The site when the supervisor of a handle has done some work. -/
def put (h : Handle) (x : Scene η σ) (s : Site η σ) : Site η σ :=
  match s.collection.slot? h with
  | none => s
  | some slot =>
    { collection := s.collection.setSlot h { slot with supervisor := x.supervisor }
      host := x.host
      events := if slot.announces then s.events ++ x.events else s.events }

/-- Locks or unlocks a slot. -/
def setLocked (h : Handle) (locked : Bool) (s : Site η σ) : Site η σ :=
  { s with collection := s.collection.setLocked h locked }

/-- Whether the slot of a handle is locked. -/
def isLocked (s : Site η σ) (h : Handle) : Bool := (s.collection.slot? h).any (·.locked)

/-- Grants a wait, if what was waited for has come. -/
def grant (H : Host η) : Wait → Site η σ → Option (Site η σ)
  | .clock time, s => if time ≤ H.now s.host then some s else none
  | .lock h, s => if s.isLocked h then none else some (s.setLocked h true)
  | .panicked _, _ => none

/-- When a wait is going to be granted, as far as that can be told. -/
def grantedAt? (H : Host η) (s : Site η σ) : Wait → Option Instant
  | .clock time => some time
  | .lock h => if s.isLocked h then none else some (H.now s.host)
  | .panicked _ => none

/-- Sleeps until a point of time, unless that has come. -/
def sleepUntil (H : Host η) (t : Instant) (s : Site η σ) : Site η σ :=
  if t ≤ H.now s.host then s
  else { s with host := H.sleep (t.since (H.now s.host)) s.host }

end Site

/-- Builds a supervisor on a host, and may have started it already. What it has announced comes with
it. -/
abbrev Factory (η σ : Type) := η → Except SupervisorError (Slot σ) × List Event × η

/-- The factory that also starts what it builds. -/
def Factory.starting {η σ : Type} (H : Host η) (factory : Factory η σ) : Factory η σ := fun host =>
  match factory host with
  | (.error e, events, host) => (.error e, events, host)
  | (.ok slot, events, host) =>
    let (result, x) := (Supervisor.start H).run { supervisor := slot.supervisor, host }
    (result.map fun _ => { slot with supervisor := x.supervisor },
      if slot.announces then events ++ x.events else events, x.host)

namespace Deed

variable {η σ α : Type}

/-- Announces an event. -/
def announce (e : Event) : Deed η σ Unit :=
  modify fun s => if s.collection.announces then { s with events := s.events ++ [e] } else s

/-- Changes the collection. -/
def change (f : Collection σ → α × Collection σ) : Deed η σ α :=
  modifyGet fun s => let (a, collection) := f s.collection; (a, { s with collection })

/-- Has the supervisor of a slot do something, on its own. -/
def employ (slot : Slot σ) (act : Act η σ α) : Deed η σ (α × Slot σ) :=
  modifyGet fun s =>
    let (a, x) := act.run { supervisor := slot.supervisor, host := s.host }
    let events := if slot.announces then s.events ++ x.events else s.events
    ((a, { slot with supervisor := x.supervisor }), { s with host := x.host, events })

/-- Has the supervisor of a handle do something. -/
def on (h : Handle) (act : Act η σ α) : Deed η σ (Option α) := fun s =>
  match s.scene? h with
  | none => (none, s)
  | some x => let (a, x) := act x; (some a, s.put h x)

/-- Builds a supervisor with a factory. -/
def build (factory : Factory η σ) : Deed η σ (Except SupervisorError (Slot σ)) :=
  modifyGet fun s =>
    let (slot, events, host) := factory s.host
    (slot, { s with host, events := s.events ++ events })

end Deed

namespace LongDeed

variable {η σ α : Type} (H : Host η)

/-- Waits for a span. -/
def sleep (span : Duration) : LongDeed η σ Unit := do
  Activity.await (.clock ((H.now (← get).host).later span))

/-- Has the supervisor of a handle do something over some time. -/
def on (h : Handle) (act : LongAct η σ α) : LongDeed η σ (Option α) :=
  act.within (fun s => s.scene? h) (Site.put h) fun span s => .clock ((H.now s.host).later span)

/-- Does something once nobody else uses the supervisor of a handle, and while nobody else does. -/
def holding (h : Handle) (deed : LongDeed η σ α) : LongDeed η σ α := do
  Activity.await (.lock h)
  let a ← deed
  modify (Site.setLocked h false)
  pure a

/-- Has the supervisor of a handle do something over some time, which nobody else uses meanwhile. -/
def onHeld (h : Handle) (act : LongAct η σ α) : LongDeed η σ (Option α) := holding h (on H h act)

end LongDeed

namespace Collection

open Deed
open Activity (atOnce)

variable {η σ : Type} (H : Host η)

/-! ### Sections -/

/-- What came of looking a key up. -/
inductive Placement where
  /-- There was a supervisor under the key. -/
  | found (handle : Handle)
  /-- There was none, and a new one is stored. -/
  | stored (handle : Handle)
  /-- There was none, and no new one could be had. -/
  | refused (error : SupervisorError)
  /-- There was none, no new one could be had, and it was a panic to give up what had been built. -/
  | panicked (error : SupervisorError) (panic : Panic)
  deriving DecidableEq, Inhabited

/-- Makes a new supervisor ready to be stored: starts it unless that was done before. -/
def setUp : Act η σ (Except SupervisorError Unit) := do
  let result ← if (← get).supervisor.isStarted then pure (.ok ()) else Supervisor.start H
  match result with
  | .error e => pure (.error e)
  | .ok () => do
    Supervisor.touch H
    pure (.ok ())

/-- Looks a key up. If nothing is stored under it, a supervisor is built, started and stored. One
that cannot be started is given up, which may be a panic. -/
def place (key : String) (factory : Factory η σ) : Deed η σ Placement := do
  match (← get).collection.handle? key with
  | some h => pure (.found h)
  | none =>
    match ← build factory with
    | .error e => pure (.refused e)
    | .ok slot =>
      match ← employ slot (setUp H) with
      | (.ok (), slot) => Placement.stored <$> change fun c => c.store key slot
      | (.error e, slot) => do
        match (← employ slot (Supervisor.drop H)).1 with
        | .ok () => pure (.refused e)
        | .error p => pure (.panicked e p)

/-- Marks the supervisor of a handle as used now, unless a caller uses it anyway. -/
def touchUnlessLocked (h : Handle) : Deed η σ Unit := do
  match (← get).collection.slot? h with
  | some slot =>
    if slot.locked then pure ()
    else
      let _ ← on h (Supervisor.touch H)
  | none => pure ()

/-- Takes out what is stored under a key. -/
def take (key : String) : Deed η σ (Option Handle) := change fun c =>
  (c.handle? key, (c.extract fun entry => entry.1 == key).2)

/-- Takes out all entries whose supervisors are idle at some time and not used at the moment. A
table of hashed keys gives them out in an order of its own; here that is the order in which they
were stored. -/
def takeIdle (now : Instant) : Deed η σ (Except Panic (List (String × Handle))) := fun s =>
  match s.collection.idlePanic? with
  | some p => (.error p, s)
  | none =>
    let (idle, collection) := s.collection.extract (s.collection.isIdle now)
    (.ok idle, { s with collection })

/-- Takes out all entries. As in `takeIdle`, the order of a table of hashed keys is taken to be that
in which they were stored. -/
def takeAll : Deed η σ (List (String × Handle)) := change fun c => c.extract fun _ => true

/-- Stops the supervisor of a handle. There is no tier if it did not run. -/
def stopSlot (h : Handle) : LongDeed η σ (Except SupervisorError (Option StopTier)) := do
  match ← LongDeed.onHeld H h (Supervisor.stop H) with
  | none | some (.error .notStarted) => pure (.ok none)
  | some (.ok tier) => pure (.ok (some tier))
  | some (.error e) => pure (.error e)

/-! ### Operations -/

/-- The handle that is stored under a key, or that of a new supervisor, which is stored. The
supervisor counts as used now. -/
def lookupOrAdd (key : String) (factory : Factory η σ) :
    LongDeed η σ (Except SupervisorError Handle) := do
  match ← atOnce (place H key factory) with
  | .refused e => pure (.error e)
  | .panicked e p => do
    Activity.await (.panicked p)
    pure (.error e)
  | .found h => do
    atOnce (touchUnlessLocked H h)
    pure (.ok h)
  | .stored h => do
    atOnce (announce (({ kind := .serverAdded } : Event).withServer key))
    pure (.ok h)

/-- Takes out what is stored under a key and stops it. There is no tier if nothing is stored or the
server did not run. -/
def delete (key : String) : LongDeed η σ (Except SupervisorError (Option StopTier)) := do
  match ← atOnce (take key) with
  | none => pure (.ok none)
  | some h =>
    match ← stopSlot H h with
    | .error e => pure (.error e)
    | .ok tier => do
      atOnce (announce (({ kind := .serverRemoved } : Event).withServer key))
      pure (.ok tier)

/-- How long the server of a handle may stay unused. -/
def idleTime (h : Handle) : Deed η σ Duration := do
  pure (((← get).collection.slot? h).elim .zero fun slot => slot.supervisor.config.maxIdleTime)

/-- Stops an idle server that was taken out. -/
def retire (key : String) (h : Handle) : LongDeed η σ Unit := do
  let limit ← LongDeed.holding h (atOnce (idleTime h))
  match ← stopSlot H h with
  | .ok _ => pure ()
  | .error e =>
    atOnce (announce
      ((({ kind := .serverExited } : Event).withServer key).withReason e.message))
  atOnce (announce ((({ kind := .idleCleaned } : Event).withServer key).withTimeout limit))

/-- Takes out and stops all servers that are idle and not used at the moment. The clock is read
before the collection is looked at. The answer has the keys. -/
def cleanIdle : LongDeed η σ (Except Panic (List String)) := do
  let now := H.now (← get).host
  match ← atOnce (takeIdle now) with
  | .error p => pure (.error p)
  | .ok idle => do
    idle.forM fun (key, h) => retire H key h
    pure (.ok (idle.map Prod.fst))

/-- Stops a server that was taken out, whatever comes of it. -/
def discard (key : String) (h : Handle) : LongDeed η σ Unit := do
  let _ ← stopSlot H h
  atOnce (announce (({ kind := .serverRemoved } : Event).withServer key))

/-- Ends the cleaners for good, takes out all servers and stops them. -/
def cleanup : LongDeed η σ Unit := do
  atOnce (change fun c => ((), { c with cancelled := true }))
  (← atOnce takeAll).forM fun (key, h) => discard H key h

/-- Whether a signal asks for a shutdown. -/
def isShutdown : Signal → Bool
  | .int | .term | .quit => true
  | _ => false

/-- Cleans up if a signal asks for a shutdown. The answer says whether it did. -/
def shutdownOn (signal : Signal) : LongDeed η σ Bool := do
  if isShutdown signal then
    atOnce (announce { kind := .shutdownRequested })
    cleanup H
    pure true
  else pure false

end Collection

end Overseer
