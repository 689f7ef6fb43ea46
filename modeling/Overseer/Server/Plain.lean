import Overseer.Server.Basic

/-!
# A plain server

A server that leaves all its hooks as they are. It answers `echo` with the arguments it is given
and `name` with its name, and `bye` ends it.
-/

namespace Overseer.Server

/-- The plain server of a name. It has no state. -/
def plain (name : String) : Server Unit where
  name _ := name
  handlers := .ofList
    [("echo", fun args => Code.reply ⟨"echo", args⟩),
     ("name", fun _ => Code.reply ⟨"name", [Octets.ofText name]⟩),
     ("bye", fun _ => Code.quit)]

end Overseer.Server
