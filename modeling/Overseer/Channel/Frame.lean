import Overseer.Channel.Error
import Overseer.Message

/-!
# Frames

A frame is what a channel writes at once: six octets of header and a body. The header holds the
kind, the flags and the body's length in four octets; bit 0 of the flags says that a descriptor
comes with the frame. The body of a message is the number of its elements in two octets and the
elements, each behind its length in four; the first element is the name. The body of a scalar is
the data as it is.

`encodeMessage` and `encodeScalar` write a frame whose body fits a limit, and `decode` takes the
first frame off a buffer. It answers with the frame and what follows it, with nothing if the frame
is not complete yet, or with the reason why no frame can start there.
-/

namespace Overseer

/-- What is read off a stream. -/
inductive Frame where
  | message (message : Message) (flagged : Bool)
  | scalar (data : Octets) (flagged : Bool)
  deriving DecidableEq, Inhabited

namespace Frame

/-- The octets of a header. -/
def headerSize : Nat := 6

/-- The largest length that four octets hold. -/
def maxLength : Nat := (1 <<< 32) - 1

/-- The largest number of elements that two octets hold. -/
def maxElements : Nat := (1 <<< 16) - 1

/-- The kind octet of a message. -/
def messageKind : UInt8 := 1

/-- The kind octet of a scalar. -/
def scalarKind : UInt8 := 2

/-- The name of a frame's kind. -/
def kindName : Frame → String
  | message .. => "message"
  | scalar .. => "scalar"

/-- Whether a descriptor comes with the frame. -/
def flagged : Frame → Bool
  | message _ flagged => flagged
  | scalar _ flagged => flagged

/-! ### Writing -/

/-- The header of a frame. -/
def header (kind : UInt8) (flagged : Bool) (size : Nat) : Octets :=
  kind :: (if flagged then 1 else 0) :: Octets.bigEndian 4 size

/-- An element behind its length. -/
def element (xs : Octets) : Octets := Octets.bigEndian 4 xs.length ++ xs

/-- The elements of a message: its name and its arguments. -/
def elements (m : Message) : List Octets := Octets.ofText m.name :: m.args

/-- The length of a message's body. -/
def bodySize (m : Message) : Nat :=
  2 + 4 * m.size + total List.length (elements m)

/-- A body's length must be within the limit, and fit its four octets. -/
def checkSize (size limit : Nat) : Except ChannelError Unit :=
  if size > limit ∨ size > maxLength then .error (.tooLarge size limit) else .ok ()

/-- The frame of a message. -/
def encodeMessage (m : Message) (flagged : Bool) (limit : Nat) : Except ChannelError Octets :=
  if m.name.isEmpty then .error (.violation .emptyName)
  else if m.size > maxElements then .error (.violation (.tooManyElements m.size))
  else
    match checkSize (bodySize m) limit with
    | .error e => .error e
    | .ok () =>
      .ok (header messageKind flagged (bodySize m) ++ Octets.bigEndian 2 m.size
        ++ (elements m).flatMap element)

/-- The frame of a scalar. -/
def encodeScalar (data : Octets) (limit : Nat) : Except ChannelError Octets :=
  match checkSize data.length limit with
  | .error e => .error e
  | .ok () => .ok (header scalarKind false data.length ++ data)

/-! ### Reading -/

/-- Takes one element off a body. -/
def takeElement (body : Octets) : Except Violation (Octets × Octets) :=
  match Octets.split? 4 body with
  | none => .error .elementPastEnd
  | some (length, rest) =>
    match Octets.split? (Octets.toNat length) rest with
    | none => .error .elementPastEnd
    | some (xs, rest) => .ok (xs, rest)

/-- Takes so many elements off a body, after those in `taken`, which stand in reverse. -/
def takeElements : Nat → List Octets → Octets → Except Violation (List Octets × Octets)
  | 0, taken, body => .ok (taken.reverse, body)
  | count + 1, taken, body =>
    match takeElement body with
    | .error e => .error e
    | .ok (xs, rest) => takeElements count (xs :: taken) rest

/-- Reads the name of a message. -/
def readName (xs : Octets) : Except Violation String :=
  match Octets.text? xs with
  | none => .error .nameNotText
  | some name => if name.isEmpty then .error .emptyName else .ok name

/-- Reads the body of a message, which must be filled by its elements. -/
def readMessage (body : Octets) : Except Violation Message :=
  match Octets.split? 2 body with
  | none => .error .elementPastEnd
  | some (count, rest) =>
    match Octets.toNat count with
    | 0 => .error .noName
    | count + 1 =>
      match takeElement rest with
      | .error e => .error e
      | .ok (name, rest) =>
        match readName name with
        | .error e => .error e
        | .ok name =>
          match takeElements count [] rest with
          | .error e => .error e
          | .ok (args, rest) =>
            if rest.isEmpty then .ok ⟨name, args⟩ else .error (.trailing rest.length)

/-- Reads a frame of a known header. -/
def read (kind : UInt8) (flagged : Bool) (body : Octets) : Except Violation Frame :=
  if kind = messageKind then
    match readMessage body with
    | .error e => .error e
    | .ok m => .ok (.message m flagged)
  else if kind = scalarKind then .ok (.scalar body flagged)
  else .error (.unknownKind kind.toNat)

/-- Takes the first frame off a buffer, with what follows it. There is none to take before the
frame is complete; a body above the limit is refused as soon as the header is there. -/
def decode (limit : Nat) (buffer : Octets) : Except ChannelError (Option (Frame × Octets)) :=
  match buffer with
  | kind :: flags :: a :: b :: c :: d :: rest =>
    let size := Octets.toNat [a, b, c, d]
    match checkSize size limit with
    | .error e => .error e
    | .ok () =>
      match Octets.split? size rest with
      | none => .ok none
      | some (body, rest) =>
        match read kind (flags &&& 1 != 0) body with
        | .error e => .error (.violation e)
        | .ok frame => .ok (some (frame, rest))
  | _ => .ok none

end Frame

end Overseer
