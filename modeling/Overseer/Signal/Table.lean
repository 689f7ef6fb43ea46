import Overseer.Signal.State
import Overseer.Text.Quoted

/-!
# Tables of signals

What a server wants its signals to do. A `SignalTable` binds signals to actions, the last binding
of a signal being the one that counts; `SignalTable.plan` is what is installed for it. Callbacks do
not run when the signal arrives: the signal is marked, and the loop calls the callback later.
-/

namespace Overseer

/-- What a server wants a signal to do. The callbacks are of type `β`. -/
inductive SignalAction (β : Type) where
  | default
  | ignore
  /-- Ends the loop. -/
  | quit
  /-- Is called by the loop. -/
  | callback (run : β)

namespace SignalAction

variable {β : Type}

/-- The disposition that does what is wanted. -/
def disposition : SignalAction β → Disposition
  | default => .default
  | ignore => .ignore
  | quit => .quit
  | callback _ => .deferred

/-- The written form of an action. -/
def describe : SignalAction β → String
  | default => "Default"
  | ignore => "Ignore"
  | quit => "Quit"
  | callback _ => "Callback(..)"

end SignalAction

/-- Which signals are bound, and to what. -/
structure SignalTable (β : Type) where
  action? : Signal → Option (SignalAction β) := fun _ => none

namespace SignalTable

variable {β : Type}

/-- Binds one signal. -/
def set (t : SignalTable β) (signal : Signal) (a : SignalAction β) : SignalTable β :=
  ⟨fun other => if other = signal then some a else t.action? other⟩

/-- The table in which a termination signal and the interrupt end the loop. -/
def ofTermination (termination : Signal) : SignalTable β :=
  (({} : SignalTable β).set termination .quit).set .int .quit

/-- What is bound, by number. -/
def entries (t : SignalTable β) : List (Signal × SignalAction β) :=
  Signal.all.filterMap fun signal => (t.action? signal).map fun a => (signal, a)

/-- The number of bound signals. -/
def size (t : SignalTable β) : Nat := t.entries.length

/-- The callback that is bound to a signal, if one is. -/
def callback? (t : SignalTable β) (signal : Signal) : Option β :=
  match t.action? signal with
  | some (.callback run) => some run
  | _ => none

/-- The dispositions to install: those of the bound signals that can be trapped. -/
def plan (t : SignalTable β) : List (Signal × Disposition) :=
  (t.entries.filter fun (signal, _) => signal.trappable).map fun (signal, a) =>
    (signal, a.disposition)

/-- The entries as they are shown. -/
private def shown (t : SignalTable β) : List (String × String) :=
  t.entries.map fun (signal, a) => (signal.name, a.describe)

/-- The written form of a table. -/
def describe (t : SignalTable β) : String := Text.map t.shown

/-- The written form of a table with a line for each entry. -/
def describeOver (t : SignalTable β) : String := Text.mapOver t.shown

end SignalTable

end Overseer
