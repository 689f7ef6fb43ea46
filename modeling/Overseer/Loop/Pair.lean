import Overseer.Loop.Serve
import Overseer.Socket.Pair

/-!
# Serving one end of a pair

A server that is run without a fork serves end `b` of a pair, to whose other end something may have
been written before. The process ignores what a write to a closed end would raise. When the server
is through, its end is closed.
-/

namespace Overseer.Loop

variable {σ : Type}

/-- The process that has end `b` of a pair. -/
def processAt (pair : Pair) (coming : List Stimulus) : Process :=
  { signals := ({} : SignalState).bind .pipe .ignore
    inbox := pair.b.inbox
    peerGone := pair.a.inbox.shut
    coming
    descriptors := [0, 1, 2, 3] }

/-- The pair when the process has written to it and closed its end. -/
def leave (pair : Pair) (p : Process) : Pair :=
  let pair := pair.modify .b fun s => { s with inbox := p.inbox }
  let pair := pair.modify .a fun s =>
    { s with inbox := { s.inbox with queue := s.inbox.queue ++ p.sent } }
  pair.close .b

/-- Serves end `b` of a pair, while one thing after the other happens to it from outside. -/
def serveEnd (srv : Server σ) (config : Config) (server : σ) (pair : Pair)
    (coming : List Stimulus) : Except Halt LoopExit × World σ × Pair :=
  match runInProcess srv config server (processAt pair coming) with
  | .ok exit w => (.ok exit, w, leave pair w.process)
  | .error halt w => (.error halt, w, leave pair w.process)

end Overseer.Loop
