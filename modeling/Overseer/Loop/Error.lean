import Overseer.Channel.Error

/-!
# Failures that end a server's loop
-/

namespace Overseer

/-- Why a server's loop failed. -/
inductive LoopError where
  /-- No handler is registered for the name of a message. -/
  | unknownMessage (name : String)
  /-- A handler or hook gave up. -/
  | failed (reason : String)
  /-- The channel failed. -/
  | channel (error : ChannelError)
  /-- The signals could not be bound or put back. -/
  | signals (errno : Errno)
  deriving DecidableEq, Inhabited

namespace LoopError

/-- A short name for the failure. -/
def label : LoopError → String
  | unknownMessage _ => "dispatch_unknown_message"
  | failed _ => "dispatch_failed"
  | channel _ => "dispatch_channel"
  | signals _ => "dispatch_signals"

/-- How the failure is reported. -/
def message : LoopError → String
  | unknownMessage name => "unknown message '" ++ name ++ "' received"
  | failed reason => "handler failed: " ++ reason
  | channel e => "channel error: " ++ e.message
  | signals e => "signal setup failed: " ++ e.named

/-- The reports of the failures that lie behind this one, nearest first. -/
def causes : LoopError → List String
  | channel e => e.message :: e.causes
  | signals e => [e.named]
  | _ => []

end LoopError

end Overseer
