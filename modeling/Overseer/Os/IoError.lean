import Overseer.Os.Errno

/-!
# Failures of reading and writing

A failed read or write is of a kind. The kind is what callers look at (`IoError.kind`): it says
whether a call was merely interrupted, or whether the peer is gone. The message comes from the
error number, from a text of its own or from the kind (`IoError.message`).
-/

namespace Overseer

/-- Kinds of failed reads and writes. -/
inductive IoKind where
  | notFound
  | permissionDenied
  | connectionRefused
  | connectionReset
  | connectionAborted
  | notConnected
  | brokenPipe
  | wouldBlock
  | invalidInput
  | invalidData
  | timedOut
  | writeZero
  | interrupted
  | unsupported
  | unexpectedEof
  | outOfMemory
  | other
  /-- An error number that belongs to no kind. -/
  | uncategorized
  deriving DecidableEq, Inhabited

/-- All kinds. -/
def IoKind.all : List IoKind :=
  [.notFound, .permissionDenied, .connectionRefused, .connectionReset, .connectionAborted,
    .notConnected, .brokenPipe, .wouldBlock, .invalidInput, .invalidData,
    .timedOut, .writeZero, .interrupted, .unsupported, .unexpectedEof,
    .outOfMemory, .other, .uncategorized]

/-- The written form of a kind. -/
def IoKind.name : IoKind → String
  | .notFound => "NotFound"
  | .permissionDenied => "PermissionDenied"
  | .connectionRefused => "ConnectionRefused"
  | .connectionReset => "ConnectionReset"
  | .connectionAborted => "ConnectionAborted"
  | .notConnected => "NotConnected"
  | .brokenPipe => "BrokenPipe"
  | .wouldBlock => "WouldBlock"
  | .invalidInput => "InvalidInput"
  | .invalidData => "InvalidData"
  | .timedOut => "TimedOut"
  | .writeZero => "WriteZero"
  | .interrupted => "Interrupted"
  | .unsupported => "Unsupported"
  | .unexpectedEof => "UnexpectedEof"
  | .outOfMemory => "OutOfMemory"
  | .other => "Other"
  | .uncategorized => "Uncategorized"

/-- The kind of a written form. -/
def IoKind.ofName? (text : String) : Option IoKind := all.find? fun k => k.name == text

/-- How a kind is described. -/
def IoKind.description : IoKind → String
  | .notFound => "entity not found"
  | .permissionDenied => "permission denied"
  | .connectionRefused => "connection refused"
  | .connectionReset => "connection reset"
  | .connectionAborted => "connection aborted"
  | .notConnected => "not connected"
  | .brokenPipe => "broken pipe"
  | .wouldBlock => "operation would block"
  | .invalidInput => "invalid input parameter"
  | .invalidData => "invalid data"
  | .timedOut => "timed out"
  | .writeZero => "write zero"
  | .interrupted => "operation interrupted"
  | .unsupported => "unsupported"
  | .unexpectedEof => "unexpected end of file"
  | .outOfMemory => "out of memory"
  | .other => "other error"
  | .uncategorized => "uncategorized error"

/-- The kind of an error number. -/
def Errno.kind (e : Errno) : IoKind :=
  match e.number with
  | 1 | 13 => .permissionDenied
  | 2 => .notFound
  | 4 => .interrupted
  | 11 => .wouldBlock
  | 12 => .outOfMemory
  | 22 => .invalidInput
  | 32 => .brokenPipe
  | 95 => .unsupported
  | 103 => .connectionAborted
  | 104 => .connectionReset
  | 107 => .notConnected
  | 110 => .timedOut
  | _ => .uncategorized

/-- A failed read or write. -/
inductive IoError where
  /-- A failure known by its kind alone. -/
  | plain (kind : IoKind)
  /-- A failure with a message of its own. -/
  | explained (kind : IoKind) (text : String)
  /-- A failure that the operating system reported. -/
  | os (errno : Errno)
  deriving DecidableEq, Inhabited

namespace IoError

/-- The kind of a failure. -/
def kind : IoError → IoKind
  | plain kind => kind
  | explained kind _ => kind
  | os errno => errno.kind

/-- How a failure is reported. -/
def message : IoError → String
  | plain kind => kind.description
  | explained _ text => text
  | os errno => errno.described

/-- Nothing is there to be read, and the call does not wait. -/
def nothingQueued : IoError := os ⟨11⟩

/-- The peer takes no more. -/
def brokenPipe : IoError := os ⟨32⟩

/-- The peer went away without reading what it had been sent. -/
def connectionReset : IoError := os ⟨104⟩

/-- The process has no descriptor left. -/
def tooManyOpen : IoError := os ⟨24⟩

/-- The transport has no way to carry a descriptor. -/
def cannotCarry : IoError := explained .unsupported "transport cannot carry descriptors"

/-- More descriptors arrived than a read has room for, so that some were lost. -/
def descriptorsLost : IoError := explained .other "ancillary data truncated; descriptors lost"

end IoError

end Overseer
