import Overseer.Collection.Cleaner

/-!
# A caller of a collection

A `Caller` uses a collection over some time: it keeps handles, which outlive their keys, locks
supervisors and unlocks them, and has cleaners. When it has to wait for something, the cleaners go
on meanwhile, and time passes once nobody can go on (`Caller.perform`). What it does without a wait
comes before anything that the cleaners do.
-/

namespace Overseer

/-- A site with what one caller of its collection has. -/
structure Caller (η σ : Type) where
  site : Site η σ
  /-- The handles that it keeps, under the keys by which it found them. -/
  kept : List (String × Handle) := []
  /-- The handles that it has locked, likewise. -/
  locks : List (String × Handle) := []
  /-- Its cleaners, in the order in which it started them. -/
  cleaners : List (Cleaner η σ) := []
  /-- The place of the cleaner that it started last, unless it has joined that one. -/
  joinable : Option Nat := none

namespace Caller

variable {η σ α : Type} (H : Host η)

/-- The slot that is stored under a key. -/
def slot? (c : Caller η σ) (key : String) : Option (Slot σ) :=
  (c.site.collection.handle? key).bind c.site.collection.slot?

/-- Whether the caller has locked the slot of a handle. -/
def holds (c : Caller η σ) (h : Handle) : Bool := c.locks.any fun entry => entry.2 == h

/-! ### Doing something -/

/-- Does something at once. -/
def atOnce (c : Caller η σ) (deed : Deed η σ α) : α × Caller η σ :=
  let (a, site) := deed.run c.site
  (a, { c with site })

/-- Has each cleaner go on as far as it can. -/
def letClean (c : Caller η σ) : Caller η σ :=
  let (cleaners, site) := (c.cleaners.mapM (Cleaner.goOn H)).run c.site
  { c with cleaners, site }

/-- Lets time pass until a cleaner can go on, or until a time at which the caller can. There is no
such time if nobody can ever go on, as far as that can be told. -/
def passTime (c : Caller η σ) (own : Option Instant) : Option (Caller η σ) :=
  let times := own.toList ++ c.cleaners.filterMap fun cleaner => cleaner.wakesAt? H c.site
  times.min?.map fun t => { c with site := c.site.sleepUntil H t }

/-- Goes on with something after a wait: the cleaners go on, then the caller, and time passes until
one of them can go on again. There is no answer if that is never, or if so many times are not
enough. -/
def attend : Nat → LongDeed η σ α → Caller η σ → Option α × Caller η σ
  | 0, _, c => (none, c)
  | times + 1, deed, c =>
    let c := c.letClean H
    match deed.proceed (Site.grant H) c.site with
    | (.done a, site) => (some a, { c with site })
    | (deed, site) =>
      let c := { c with site }
      match c.passTime H (deed.awaited?.bind (site.grantedAt? H)) with
      | none => (none, c)
      | some c => attend times deed c

/-- Does something over some time. There is no answer if it never ends, or if so many times at which
somebody goes on are not enough. -/
def perform (times : Nat) (c : Caller η σ) (deed : LongDeed η σ α) : Option α × Caller η σ :=
  match deed.proceed (Site.grant H) c.site with
  | (.done a, site) => (some a, { c with site })
  | (deed, site) => attend H times deed { c with site }

/-- What is done with the supervisor of a handle, which the caller has locked or else locks for the
time. -/
def having (c : Caller η σ) (h : Handle) (deed : LongDeed η σ α) : LongDeed η σ α :=
  if c.holds h then deed else LongDeed.holding h deed

/-- Has the supervisor under a key do something at once, if there is one. -/
def on (c : Caller η σ) (key : String) (act : Act η σ α) : Option α × Caller η σ :=
  match c.site.collection.handle? key with
  | some h => c.atOnce (Deed.on h act)
  | none => (none, c)

/-- Has the supervisor under a key do something over some time, if there is one. -/
def onLong (c : Caller η σ) (key : String) (act : LongAct η σ α) : LongDeed η σ (Option α) :=
  match c.site.collection.handle? key with
  | some h => c.having h (LongDeed.on H h act)
  | none => pure none

/-! ### Handles and locks -/

/-- The stage of life of the supervisor whose handle is kept under a key, if there is one. -/
def keptLife (c : Caller η σ) (key : String) : LongDeed η σ (Option Life) :=
  match c.kept.lookup key with
  | some h => c.having h (Activity.atOnce (Deed.on h do pure (← get).supervisor.life))
  | none => pure none

/-- Keeps the handle that is stored under a key. The answer says whether there is one. -/
def keep (c : Caller η σ) (key : String) : Bool × Caller η σ :=
  match c.site.collection.handle? key with
  | some h => (true, { c with kept := (key, h) :: c.kept })
  | none => (false, c)

/-- Lets the handle go that is kept under a key. -/
def letGo (c : Caller η σ) (key : String) : Bool × Caller η σ :=
  ((c.kept.lookup key).isSome, { c with kept := c.kept.filter fun entry => entry.1 != key })

/-- Locks the slot that is stored under a key, unless it is locked. -/
def lock (c : Caller η σ) (key : String) : Bool × Caller η σ :=
  match c.site.collection.handle? key with
  | none => (false, c)
  | some h =>
    if c.site.isLocked h then (false, c)
    else (true, { c with site := c.site.setLocked h true, locks := (key, h) :: c.locks })

/-- Unlocks the slot that was locked under a key. -/
def unlock (c : Caller η σ) (key : String) : Bool × Caller η σ :=
  match c.locks.lookup key with
  | none => (false, c)
  | some h =>
    (true, { c with
      site := c.site.setLocked h false
      locks := c.locks.filter fun entry => entry.1 != key })

/-- Unlocks everything that the caller has locked. -/
def unlockAll (c : Caller η σ) : Caller η σ :=
  { c with
    site := c.locks.foldl (fun site entry => site.setLocked entry.2 false) c.site
    locks := [] }

/-! ### Cleaners -/

/-- Starts a cleaner. -/
def spawnCleaner (c : Caller η σ) (interval : Duration) : Caller η σ :=
  { c with
    cleaners := c.cleaners ++ [.ofInterval interval]
    joinable := some c.cleaners.length }

/-- Waits for a server to be cleaned that is or was under a key, with so many looks and a pause
after each. -/
def awaitCleaned (key : String) (pause : Duration) : Nat → LongDeed η σ Bool
  | 0 => pure false
  | looks + 1 => do
    if (← get).events.any fun e => e.kind == .idleCleaned && e.server == some key then pure true
    else
      LongDeed.sleep H pause
      awaitCleaned key pause looks

/-- Waits for a cleaner to end, while time passes at most so many times. The answer says whether it
came to its end without a panic. -/
def awaitEnd (i : Nat) : Nat → Caller η σ → Bool × Caller η σ
  | 0, c => (false, c)
  | times + 1, c =>
    match c.cleaners[i]?.bind Cleaner.ended? with
    | some normally => (normally, c)
    | none => let c := c.letClean H; awaitEnd i times ((c.passTime H none).getD c)

/-- Joins the cleaner that was started last, if that was not done yet: waits for it to end. -/
def joinCleaner (times : Nat) (c : Caller η σ) : Option Bool × Caller η σ :=
  match c.joinable with
  | none => (none, c)
  | some i =>
    let (normally, c) := awaitEnd H i times { c with joinable := none }
    (some normally, c)

end Caller

end Overseer
