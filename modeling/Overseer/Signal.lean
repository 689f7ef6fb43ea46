/-!
# Signals

The 31 standard signals, numbered from 1 in the order of their constructors. A signal is written
and read by its name (`Signal.name`, `Signal.ofName?`), or written by its number (`Signal.number`).
What a process may bind for itself are the trappable ones; what it has not bound does what
`Signal.defaultEffect` says.
-/

namespace Overseer

/-- The standard signals. -/
inductive Signal where
  | hup
  | int
  | quit
  | ill
  | trap
  | abrt
  | bus
  | fpe
  | kill
  | usr1
  | segv
  | usr2
  | pipe
  | alrm
  | term
  | stkflt
  | chld
  | cont
  | stop
  | tstp
  | ttin
  | ttou
  | urg
  | xcpu
  | xfsz
  | vtalrm
  | prof
  | winch
  | io
  | pwr
  | sys
  deriving DecidableEq, Inhabited

namespace Signal

/-- All signals, by number. -/
def all : List Signal :=
  [.hup, .int, .quit, .ill, .trap, .abrt, .bus, .fpe, .kill, .usr1, .segv, .usr2, .pipe, .alrm,
   .term, .stkflt, .chld, .cont, .stop, .tstp, .ttin, .ttou, .urg, .xcpu, .xfsz, .vtalrm, .prof,
   .winch, .io, .pwr, .sys]

/-- The number of a signal. -/
def number (s : Signal) : Nat := s.ctorIdx + 1

/-- The name of a signal. -/
def name : Signal → String
  | .hup => "SIGHUP"
  | .int => "SIGINT"
  | .quit => "SIGQUIT"
  | .ill => "SIGILL"
  | .trap => "SIGTRAP"
  | .abrt => "SIGABRT"
  | .bus => "SIGBUS"
  | .fpe => "SIGFPE"
  | .kill => "SIGKILL"
  | .usr1 => "SIGUSR1"
  | .segv => "SIGSEGV"
  | .usr2 => "SIGUSR2"
  | .pipe => "SIGPIPE"
  | .alrm => "SIGALRM"
  | .term => "SIGTERM"
  | .stkflt => "SIGSTKFLT"
  | .chld => "SIGCHLD"
  | .cont => "SIGCONT"
  | .stop => "SIGSTOP"
  | .tstp => "SIGTSTP"
  | .ttin => "SIGTTIN"
  | .ttou => "SIGTTOU"
  | .urg => "SIGURG"
  | .xcpu => "SIGXCPU"
  | .xfsz => "SIGXFSZ"
  | .vtalrm => "SIGVTALRM"
  | .prof => "SIGPROF"
  | .winch => "SIGWINCH"
  | .io => "SIGIO"
  | .pwr => "SIGPWR"
  | .sys => "SIGSYS"

/-- The signal of a name. -/
def ofName? (text : String) : Option Signal := all.find? fun s => s.name == text

/-- Whether a process may bind the signal while it runs: two cannot be caught, and four report a
fault of the instruction that raised them. -/
def trappable : Signal → Bool
  | .kill | .stop | .segv | .bus | .ill | .fpe => false
  | _ => true

/-- What a signal does to a process that has not bound it. -/
inductive Effect where
  /-- The process ends at once. -/
  | ends
  /-- The process is suspended. -/
  | suspends
  /-- Nothing. -/
  | none
  deriving DecidableEq

/-- What an unbound signal does. -/
def defaultEffect : Signal → Effect
  | .chld | .cont | .urg | .winch => .none
  | .stop | .tstp | .ttin | .ttou => .suspends
  | _ => .ends

end Signal

end Overseer
