import Overseer.Channel.Frame
import Overseer.Channel.Transport

/-!
# Channels

A `Channel` turns a stream into frames. It buffers what has been read until a frame is complete and
keeps the descriptors that came along in a queue: a flagged frame takes the oldest.

`Channel.settled?` says what the buffer alone answers, and `Channel.absorb` takes in one reading;
`Channel.nextFrame` alternates the two until there is an answer. On the other side `writeFrame`
writes a frame to its end, going on where the transport stopped.
-/

namespace Overseer

/-- The reading side of a channel and its settings. -/
structure Channel where
  /-- What has been read and belongs to no frame returned so far. -/
  buffer : Octets := []
  /-- The descriptors that have come, oldest first. -/
  descriptors : List Descriptor := []
  /-- Whether the stream has ended. -/
  ended : Bool := false
  /-- Whether an interrupted read is reported, rather than tried again. -/
  interruptible : Bool := false
  /-- The longest body that is sent or accepted. -/
  limit : Nat := 16 * 1024 * 1024
  deriving DecidableEq, Inhabited

/-- How a receiving call ends. -/
inductive Reception (α : Type) where
  /-- Something came. -/
  | item (value : α)
  /-- The peer closed the channel between two frames. -/
  | ended
  /-- The call failed. -/
  | failed (error : ChannelError)
  /-- The call waits for ever on what the transport has been told so far. -/
  | waiting
  deriving DecidableEq, Inhabited

namespace Channel

/-- The longest body that is accepted unless another limit is set. -/
def defaultLimit : Nat := ({} : Channel).limit

/-- The octets that are asked for in one read. -/
def chunkSize : Nat := 8192

/-- Sets the longest body; it is at least 1. -/
def withLimit (c : Channel) (limit : Nat) : Channel := { c with limit := max limit 1 }

/-! ### Receiving -/

/-- What the channel answers without a further read, if anything. -/
def settled? (c : Channel) : Option (Reception (Frame × Option Descriptor) × Channel) :=
  match Frame.decode c.limit c.buffer with
  | .error e => some (.failed e, c)
  | .ok (some (frame, rest)) =>
    let c := { c with buffer := rest }
    if frame.flagged then
      match c.descriptors with
      | [] => some (.failed (.violation .missingDescriptor), c)
      | d :: descriptors => some (.item (frame, some d), { c with descriptors })
    else some (.item (frame, none), c)
  | .ok none =>
    if c.ended then
      if c.buffer.isEmpty then some (.ended, c)
      else some (.failed (.violation (.cutShort c.buffer.length)), c)
    else none

/-- Takes in one reading. It is a failure of the call unless it brought octets, ended the stream or
is tried again. -/
def absorb (c : Channel) (r : Reading) : Option ChannelError × Channel :=
  let c := { c with descriptors := c.descriptors ++ r.descriptors }
  match r.result with
  | .ok xs =>
    if xs.isEmpty then (none, { c with ended := true })
    else (none, { c with buffer := c.buffer ++ xs })
  | .error e =>
    match e.kind with
    | .interrupted => if c.interruptible then (some .interrupted, c) else (none, c)
    | .connectionReset => (none, { c with ended := true })
    | _ => (some (.io e), c)

section
variable {τ : Type} (T : Transport τ)

/-- Reads until there is an answer, within a number of reads. -/
def nextFrameWithin : Nat → Channel → τ → Reception (Frame × Option Descriptor) × Channel × τ
  | 0, c, t => (.waiting, c, t)
  | reads + 1, c, t =>
    match c.settled? with
    | some (answer, c) => (answer, c, t)
    | none =>
      match T.read t chunkSize with
      | (none, t) => (.waiting, c, t)
      | (some r, t) =>
        match c.absorb r with
        | (some e, c) => (.failed e, c, t)
        | (none, c) => nextFrameWithin reads c t

/-- Reads until there is an answer. Each read but the last two makes the inflow smaller. -/
def nextFrame (c : Channel) (t : τ) : Reception (Frame × Option Descriptor) × Channel × τ :=
  nextFrameWithin T (T.inflow t + 2) c t

/-- Receives one message. -/
def receive (c : Channel) (t : τ) : Reception Envelope × Channel × τ :=
  match nextFrame T c t with
  | (.item (.message m _, d), c, t) => (.item ⟨m, d⟩, c, t)
  | (.item (frame, _), c, t) => (.failed (.unexpected "message" frame.kindName), c, t)
  | (.ended, c, t) => (.ended, c, t)
  | (.failed e, c, t) => (.failed e, c, t)
  | (.waiting, c, t) => (.waiting, c, t)

/-- Receives one scalar. -/
def receiveScalar (c : Channel) (t : τ) : Reception Octets × Channel × τ :=
  match nextFrame T c t with
  | (.item (.scalar xs _, _), c, t) => (.item xs, c, t)
  | (.item (frame, _), c, t) => (.failed (.unexpected "scalar" frame.kindName), c, t)
  | (.ended, c, t) => (.ended, c, t)
  | (.failed e, c, t) => (.failed e, c, t)
  | (.waiting, c, t) => (.waiting, c, t)

/-- Receives up to a number of messages. -/
def receiveUpTo : Nat → Channel → τ → List (Except ChannelError Envelope) × Channel × τ
  | 0, c, t => ([], c, t)
  | calls + 1, c, t =>
    match receive T c t with
    | (.item e, c, t) =>
      let (rest, c, t) := receiveUpTo calls c t
      (.ok e :: rest, c, t)
    | (.failed (.unexpected expected found), c, t) =>
      let (rest, c, t) := receiveUpTo calls c t
      (.error (.unexpected expected found) :: rest, c, t)
    | (.failed e, c, t) => ([.error e], c, t)
    | (_, c, t) => ([], c, t)

/-- Receives messages to the end of the stream, or up to a failure. A frame that is no message is
passed over. -/
def receiveAll (c : Channel) (t : τ) : List (Except ChannelError Envelope) × Channel × τ :=
  receiveUpTo T (c.buffer.length + T.inflow t + 1) c t

/-! ### Sending -/

/-- Writes octets to their end, within a number of writes. The descriptor goes with the first
octets that are accepted. -/
def writeWithin : Nat → Octets → Option Descriptor → τ → Except ChannelError Unit × τ
  | 0, _, _, t => (.ok (), t)
  | writes + 1, xs, d, t =>
    if xs.isEmpty then (.ok (), t)
    else
      match T.write t xs d with
      | (.ok 0, t) => (.error .closed, t)
      | (.ok n, t) => writeWithin writes (xs.drop n) none t
      | (.error e, t) =>
        if e.kind = .interrupted then writeWithin writes xs d t else (.error (.ofWrite e), t)

/-- Writes octets to their end. Each write is interrupted or makes what is left shorter. -/
def writeFrame (xs : Octets) (d : Option Descriptor) (t : τ) : Except ChannelError Unit × τ :=
  writeWithin T (xs.length + T.stalls t + 1) xs d t

/-- Sends one message. -/
def send (c : Channel) (m : Message) (t : τ) : Except ChannelError Unit × τ :=
  match Frame.encodeMessage m false c.limit with
  | .error e => (.error e, t)
  | .ok xs => writeFrame T xs none t

/-- Sends one message together with a descriptor. -/
def sendWith (c : Channel) (m : Message) (d : Descriptor) (t : τ) : Except ChannelError Unit × τ :=
  if T.carriesDescriptors then
    match Frame.encodeMessage m true c.limit with
    | .error e => (.error e, t)
    | .ok xs => writeFrame T xs (some d) t
  else (.error .descriptorsUnsupported, t)

/-- Sends one scalar. -/
def sendScalar (c : Channel) (data : Octets) (t : τ) : Except ChannelError Unit × τ :=
  match Frame.encodeScalar data c.limit with
  | .error e => (.error e, t)
  | .ok xs => writeFrame T xs none t

end

end Channel

end Overseer
