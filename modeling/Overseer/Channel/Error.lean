import Overseer.Os.IoError

/-!
# Failures of a channel

Why a message could not be sent or received. What the peer wrote wrongly is a `Violation`, listed
by cause; `ChannelError` adds the failures of the transport and of the caller.
`ChannelError.ofWrite` folds the several ways in which a write reports a vanished peer into one.
-/

namespace Overseer

/-- How a stream of octets fails to be a sequence of frames. -/
inductive Violation where
  /-- The message has an empty name. -/
  | emptyName
  /-- The message has more elements than its count can hold. -/
  | tooManyElements (count : Nat)
  /-- The message has no element at all. -/
  | noName
  /-- The name is not text. -/
  | nameNotText
  /-- An element is longer than what is left of the frame. -/
  | elementPastEnd
  /-- The elements end before the frame does. -/
  | trailing (octets : Nat)
  /-- The frame is of no known kind. -/
  | unknownKind (kind : Nat)
  /-- The frame is flagged as carrying a descriptor, and none came. -/
  | missingDescriptor
  /-- The stream ended inside a frame. -/
  | cutShort (octets : Nat)
  /-- A cause that the caller describes. -/
  | described (reason : String)
  deriving DecidableEq, Inhabited

/-- How a violation is described. -/
def Violation.reason : Violation → String
  | .emptyName => "message name must not be empty"
  | .tooManyElements count => "too many message elements: " ++ toString count
  | .noName => "message without a name"
  | .nameNotText => "message name is not valid UTF-8"
  | .elementPastEnd => "element runs past end of frame"
  | .trailing octets => toString octets ++ " trailing bytes after message body"
  | .unknownKind kind => "unknown frame kind " ++ toString kind
  | .missingDescriptor => "frame announced a descriptor that never arrived"
  | .cutShort octets =>
    "peer closed in the middle of a frame (" ++ toString octets ++ " bytes buffered)"
  | .described reason => reason

/-- Why a message could not be sent or received. -/
inductive ChannelError where
  /-- A read or write failed. -/
  | io (error : IoError)
  /-- The peer is gone. -/
  | closed
  /-- A signal interrupted the read. What was buffered is kept. -/
  | interrupted
  /-- The transport cannot carry descriptors. -/
  | descriptorsUnsupported
  /-- The stream is not a sequence of frames. -/
  | violation (cause : Violation)
  /-- A frame's body is longer than the limit. -/
  | tooLarge (size limit : Nat)
  /-- A frame of another kind than the one asked for came. -/
  | unexpected (expected found : String)
  deriving DecidableEq, Inhabited

namespace ChannelError

/-- The failure that a failed write stands for: a peer that is gone is reported as such, whichever
way the write noticed it. -/
def ofWrite (e : IoError) : ChannelError :=
  match e.kind with
  | .brokenPipe | .connectionReset | .connectionAborted | .notConnected | .writeZero => closed
  | _ => io e

/-- A short name for the failure. -/
def label : ChannelError → String
  | io _ => "channel_io"
  | closed => "channel_closed"
  | interrupted => "channel_interrupted"
  | descriptorsUnsupported => "channel_descriptor_unsupported"
  | violation _ => "channel_protocol"
  | tooLarge .. => "channel_frame_too_large"
  | unexpected .. => "channel_unexpected_frame"

/-- How the failure is reported. -/
def message : ChannelError → String
  | io e => "i/o error: " ++ e.message
  | closed => "channel closed by peer"
  | interrupted => "interrupted by signal"
  | descriptorsUnsupported => "transport does not support descriptor passing"
  | violation cause => "protocol violation: " ++ cause.reason
  | tooLarge size limit =>
    "frame of " ++ toString size ++ " bytes exceeds limit of " ++ toString limit ++ " bytes"
  | unexpected expected found => "expected " ++ expected ++ " frame, got " ++ found

/-- The reports of the failures that lie behind this one, nearest first. -/
def causes : ChannelError → List String
  | io e => [e.message]
  | _ => []

/-- Whether the peer is gone, so that the channel has no further use. -/
def isClosed : ChannelError → Bool
  | closed => true
  | _ => false

end ChannelError

end Overseer
