/-!
# Error numbers

The numbers by which the operating system names a failed call. Each has two written forms: the
system's own description, shown with the number (`Errno.described`), and the symbolic name with a
text (`Errno.named`). A number outside the table has the form for an unknown one.
-/

namespace Overseer

/-- An error number of the operating system. -/
structure Errno where
  number : Nat
  deriving DecidableEq, Inhabited

namespace Errno

/-- What the tables say of one number: its symbol, the text that stands with the symbol and the
system's description. -/
structure Entry where
  symbol : String
  text : String
  description : String

/-- The numbers that can be met, with their texts. -/
def table : List (Nat × Entry) :=
  [(1, "EPERM", "Operation not permitted", "Operation not permitted"),
   (2, "ENOENT", "No such file or directory", "No such file or directory"),
   (3, "ESRCH", "No such process", "No such process"),
   (4, "EINTR", "Interrupted system call", "Interrupted system call"),
   (5, "EIO", "I/O error", "Input/output error"),
   (9, "EBADF", "Bad file number", "Bad file descriptor"),
   (10, "ECHILD", "No child processes", "No child processes"),
   (11, "EAGAIN", "Try again", "Resource temporarily unavailable"),
   (12, "ENOMEM", "Out of memory", "Cannot allocate memory"),
   (13, "EACCES", "Permission denied", "Permission denied"),
   (22, "EINVAL", "Invalid argument", "Invalid argument"),
   (24, "EMFILE", "Too many open files", "Too many open files"),
   (32, "EPIPE", "Broken pipe", "Broken pipe"),
   (88, "ENOTSOCK", "Socket operation on non-socket", "Socket operation on non-socket"),
   (95, "EOPNOTSUPP", "Operation not supported on transport endpoint", "Operation not supported"),
   (103, "ECONNABORTED", "Software caused connection abort", "Software caused connection abort"),
   (104, "ECONNRESET", "Connection reset by peer", "Connection reset by peer"),
   (107, "ENOTCONN", "Transport endpoint is not connected",
      "Transport endpoint is not connected"),
   (110, "ETIMEDOUT", "Connection timed out", "Connection timed out")].map
    fun (number, symbol, text, description) => (number, ⟨symbol, text, description⟩)

/-- What the tables say of a number. -/
def entry? (e : Errno) : Option Entry := table.lookup e.number

/-- The system's description, with the number. -/
def described (e : Errno) : String :=
  let text := match e.entry? with
    | some entry => entry.description
    | none => "Unknown error " ++ toString e.number
  text ++ " (os error " ++ toString e.number ++ ")"

/-- The symbolic name, with its text. -/
def named (e : Errno) : String :=
  match e.entry? with
  | some entry => entry.symbol ++ ": " ++ entry.text
  | none => "UnknownErrno: Unknown errno"

/-- The call was given something it does not take. -/
def invalidArgument : Errno := ⟨22⟩

end Errno

end Overseer
