import Overseer.Octets
import Overseer.Text.Quoted

/-!
# Messages

A `Message` is a name and a list of arguments. The name is text; the arguments are octet strings
and may hold anything. A message travels with at most one open descriptor, and arrives as an
`Envelope`.
-/

namespace Overseer

/-- A name with arguments. -/
structure Message where
  name : String
  args : List Octets := []
  deriving DecidableEq, Inhabited

namespace Message

/-- The message with one more argument at its end. -/
def withArg (m : Message) (arg : Octets) : Message := { m with args := m.args ++ [arg] }

/-- One argument. -/
def arg? (m : Message) (i : Nat) : Option Octets := m.args[i]?

/-- One argument, if it is text. -/
def argText? (m : Message) (i : Nat) : Option String := (m.arg? i).bind Octets.text?

/-- The number of elements, the name among them. -/
def size (m : Message) : Nat := m.args.length + 1

/-- Whether a message has no element, which none is: each has its name. -/
def isEmpty (_ : Message) : Bool := false

/-- The written form of a message. -/
def describe (m : Message) : String :=
  let octets (xs : Octets) := Text.list (xs.map toString)
  let args := Text.list (m.args.map octets)
  Text.struct "Message" [("name", Text.quoted m.name), ("args", args)] false

end Message

/-- An open descriptor that can be handed over. What matters of it is what it refers to: a file
whose content is its label. -/
structure Descriptor where
  label : String
  deriving DecidableEq, Inhabited

/-- A message as it arrives, with the descriptor that travelled with it. -/
structure Envelope where
  message : Message
  descriptor : Option Descriptor := none
  deriving DecidableEq, Inhabited

end Overseer
