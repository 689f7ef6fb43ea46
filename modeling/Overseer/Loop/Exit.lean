import Overseer.Signal

/-!
# How a server's loop ends
-/

namespace Overseer

/-- Why a loop ended without a failure. -/
inductive LoopExit where
  /-- The peer closed the channel. -/
  | peerClosed
  /-- A handler asked for it. -/
  | quit
  /-- A signal asked for it. -/
  | signalled (signal : Signal)
  deriving DecidableEq, Inhabited

namespace LoopExit

/-- A short name for the exit. -/
def label : LoopExit → String
  | peerClosed => "peer_closed"
  | quit => "quit"
  | signalled _ => "signalled"

/-- The written form of an exit. -/
def describe : LoopExit → String
  | peerClosed => "PeerClosed"
  | quit => "Quit"
  | signalled signal => "Signalled(" ++ signal.name ++ ")"

end LoopExit

end Overseer
