import Overseer.Channel.Error

/-!
# Failures of supervision
-/

namespace Overseer

/-- The number of a child process. -/
abbrev Pid := Int

/-- Why an operation on a supervised server failed. -/
inductive SupervisorError where
  /-- The server was started before. -/
  | alreadyStarted
  /-- The server does not run: it was not started yet, or was stopped. -/
  | notStarted
  /-- The child could not be made. -/
  | spawn (error : IoError)
  /-- A hook on the parent's side refused. -/
  | hook (name reason : String)
  /-- The channel to the child failed. -/
  | channel (error : ChannelError)
  /-- The child is gone. -/
  | exited (pid : Pid)
  deriving DecidableEq, Inhabited

namespace SupervisorError

/-- A short name for the failure. -/
def label : SupervisorError → String
  | alreadyStarted => "server_already_started"
  | notStarted => "server_not_started"
  | spawn _ => "server_spawn_failed"
  | hook .. => "server_hook_failed"
  | channel _ => "server_channel"
  | exited _ => "server_exited"

/-- How the failure is reported, for a given way to write the child's number. -/
def messageWith (showPid : Pid → String) : SupervisorError → String
  | alreadyStarted => "server is already started"
  | notStarted => "server is not started"
  | spawn e => "failed to spawn server process: " ++ e.message
  | hook name reason => "hook " ++ name ++ " failed: " ++ reason
  | channel e => "channel error: " ++ e.message
  | exited pid => "server process " ++ showPid pid ++ " exited unexpectedly"

/-- How the failure is reported. -/
def message : SupervisorError → String := messageWith toString

/-- The reports of the failures that lie behind this one, nearest first. -/
def causes : SupervisorError → List String
  | spawn e => [e.message]
  | channel e => e.message :: e.causes
  | _ => []

end SupervisorError

end Overseer
