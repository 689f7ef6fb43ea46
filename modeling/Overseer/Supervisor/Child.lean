import Overseer.Loop.Serve
import Overseer.Supervisor.Host

/-!
# What a child does

A forked child first closes the descriptors that it is not to keep (`Child.sweep`). It then serves
its line, reports what went wrong and is gone.
-/

namespace Overseer.Child

variable {σ : Type}

/-- The descriptors that a child still has open when it has closed those it is not to keep: of the
inherited ones, the standard ones, its end of the line, and what the settings and the hook before
the fork name. -/
def sweep (config : Config) (keep : KeepList) (socket : Int) (inherited : List Int) : List Int :=
  if config.closeInherited then
    let keep := ((keep.keep socket).keepAll config.keepDescriptors).keepAll
      ([0, 1, 2].filter inherited.contains)
    inherited.filter keep.contains
  else inherited

/-- How a child's name stands in its report. -/
def report (name what : String) : String := "[forkvisor] server '" ++ name ++ "' " ++ what

/-- What a child reports in the end, and whether it is gone. -/
def ending (name : String) : Except Halt LoopExit → Bool × Option String
  | .ok _ => (true, none)
  | .error (.failed e) =>
    (true, some (report name ("failed: " ++ e.message ++ " (" ++ e.label ++ ")")))
  | .error (.panicked p) => (true, some (report name ("panicked: " ++ p.message)))
  | .error (.ended _) => (true, none)
  | .error .waiting => (false, none)

/-- The process that a child starts with. What a write to a closed line would raise is ignored. -/
def process (descriptors : List Int) (socket : Int) (coming : List Stimulus) : Process :=
  { signals := ({} : SignalState).bind .pipe .ignore
    socket
    descriptors
    coming }

/-- What is seen of a child that ended so, in its world. -/
def view (name : String) (ended : Except Halt LoopExit) (w : World σ) : View :=
  let (exited, report) := ending name ended
  { sent := w.process.sent
    exited
    deaf := w.process.inbox.shut
    unread := !w.process.inbox.queue.isEmpty
    report
    background := w.process.background }

/-- The program of a child that is forked with a server in some state. -/
def program (srv : Server σ) (config : Config) (keep : KeepList) (server : σ) : Program where
  keeps inherited socket := sweep config keep socket inherited
  view inherited socket coming :=
    let descriptors := sweep config keep socket inherited
    let server := srv.afterFork server
    let name := srv.name server
    match Loop.serve srv config (Loop.start server config (process descriptors socket coming)) with
    | .ok exit w => view name (.ok exit) w
    | .error halt w => view name (.error halt) w

end Overseer.Child
