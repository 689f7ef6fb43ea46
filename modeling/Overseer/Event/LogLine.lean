import Overseer.Event.Basic
import Overseer.Text.Quoted

/-!
# Events as lines of a log
-/

namespace Overseer.Event

/-- A text that may be missing. -/
private def orUnknown (s : Option String) : String := s.getD "unknown"

/-- The line that a log writer prints for an event. -/
def logLine (e : Event) : String :=
  let subscriber := orUnknown e.server
  let server := " server=" ++ Text.quoted subscriber
  let pid := " pid=" ++ Text.option (e.pid.map toString)
  let timeout := Text.option (e.timeoutMillis.map toString)
  let reason := orUnknown e.reason
  match e.kind with
  | .shutdownRequested => "[shutdown-requested]"
  | .serverStarting => "[starting]" ++ server
  | .serverStarted => "[started]" ++ server ++ pid
  | .stopRequested => "[stop-requested]" ++ server ++ pid ++ " exit_timeout_ms=" ++ timeout
  | .terminationSent =>
    "[termination-sent]" ++ server ++ pid ++ " signal=" ++ reason ++ " term_timeout_ms=" ++ timeout
  | .killSent =>
    match e.reason with
    | some reason => "[kill-sent]" ++ server ++ pid ++ " " ++ reason
    | none => "[kill-sent]" ++ server ++ pid
  | .serverStopped =>
    "[stopped]" ++ server ++ pid ++ " tier=" ++ orUnknown (e.tier.map StopTier.label)
  | .serverExited => "[exited]" ++ server ++ pid ++ " reason=" ++ reason
  | .serverAdded => "[added]" ++ server
  | .serverRemoved => "[removed]" ++ server
  | .idleCleaned => "[idle-cleaned]" ++ server ++ " max_idle_ms=" ++ timeout
  | .subscriberOverflow => "[subscriber-overflow] subscriber=" ++ subscriber ++ " reason=" ++ reason
  | .subscriberPanicked => "[subscriber-panicked] subscriber=" ++ subscriber ++ " info=" ++ reason

end Overseer.Event
