import Overseer.Supervisor.Host

/-!
# A machine

A `Machine` is a host that is computed. It has a clock, a table of open descriptors and children,
and lets nothing happen but what its parent process does: a child takes up at once what happens to
it, and time passes only while the parent sleeps.

A child that runs only when nobody else does, on a machine with a single processor, takes things up
later: when the parent sleeps, or waits for it.

What a child finds at its end of the line depends on who has the other one open. A child that is
forked inherits the near ends of the lines to those before it, and may keep some of them. So the
parent may close a line without the child at its far end being told: it is told once nobody is left
who has kept the near end (`Machine.release`).
-/

namespace Overseer

namespace Machine

/-- A child of the machine. -/
structure Child where
  program : Program
  /-- The descriptors that it inherited. -/
  inherited : List Int
  /-- The number of its end of the line. -/
  far : Int
  /-- The number of the parent's end of the line, while that is open. -/
  near : Option Int
  /-- The children, by their places, whose near ends it has inherited and kept open. -/
  holds : List Nat := []
  /-- Whether it was told that nobody has the near end of its line open any more. -/
  parted : Bool := false
  /-- What has happened to it. -/
  told : List Stimulus := []
  /-- What has happened and was not taken up. -/
  untold : List Stimulus := []
  view : View := {}
  /-- What it has written and the parent has not read. -/
  inbox : Pipe := {}
  /-- Whether the parent took note of its end. -/
  reaped : Bool := false
  deriving Inhabited

namespace Child

/-- The child takes up what happens to it. -/
def takeUp (c : Child) (stimuli : List Stimulus) : Child :=
  let told := c.told ++ stimuli
  let view := c.program.view c.inherited c.far told
  let queue := c.inbox.queue ++ view.sent.drop c.view.sent.length
  let inbox :=
    if view.exited then { c.inbox with queue, shut := true, reset := c.inbox.reset || view.unread }
    else { c.inbox with queue }
  { c with told, view, inbox }

/-- The child takes up what it has not taken up so far. -/
def catchUp (c : Child) : Child :=
  if c.untold.isEmpty then c else { c with untold := [] }.takeUp c.untold

/-- Something happens to the child. -/
def tell (single : Bool) (c : Child) (stimulus : Stimulus) : Child :=
  if c.view.exited then c
  else if single && c.view.background then { c with untold := c.untold ++ [stimulus] }
  else c.takeUp [stimulus]

end Child

end Machine

/-- How long a machine has been up when it is first used. -/
def Machine.uptime : Duration := .ofSecs 3600

/-- A computed host. -/
structure Machine where
  clock : Instant := Instant.origin.later Machine.uptime
  /-- The descriptors that the parent has open. -/
  descriptors : List Int := [0, 1, 2]
  /-- The children, by their numbers from 1 on. -/
  children : List Machine.Child := []
  /-- What children have reported, oldest first. -/
  reports : List String := []
  /-- Whether no more descriptors can be had. -/
  exhausted : Bool := false
  /-- Whether all share a single processor. -/
  single : Bool := false
  deriving Inhabited

namespace Machine

/-- The place of a child among the children. -/
def index (pid : Pid) : Nat := pid.toNat - 1

/-- A child by its number. -/
def child? (m : Machine) (pid : Pid) : Option Child :=
  if 0 < pid then m.children[index pid]? else none

/-- Puts a child in its place, and hears what it reports. -/
def put (m : Machine) (pid : Pid) (before after : Child) : Machine :=
  let report := if before.view.report.isSome then [] else after.view.report.toList
  { m with children := m.children.set (index pid) after, reports := m.reports ++ report }

/-- Changes a child. -/
def update (m : Machine) (pid : Pid) (f : Child → Child) : Machine :=
  match m.child? pid with
  | some c => m.put pid c (f c)
  | none => m

/-- Something happens to a child. -/
def tell (m : Machine) (pid : Pid) (stimulus : Stimulus) : Machine :=
  m.update pid fun c => c.tell m.single stimulus

/-- The numbers of all children. -/
def pids (m : Machine) : List Pid := (List.range m.children.length).map fun i => Int.ofNat i + 1

/-- All children take up what has happened to them. -/
def catchUp (m : Machine) : Machine := m.pids.foldl (fun m pid => m.update pid Child.catchUp) m

/-- Whether a child that is there has the near end of the line to another one open. -/
def held (m : Machine) (i : Nat) : Bool :=
  m.children.any fun c => !c.view.exited && c.holds.contains i

/-- A child finds that its peer is gone. -/
def Child.part (single : Bool) (c : Child) : Child :=
  { c.tell single (.hangUp (!c.inbox.queue.isEmpty)) with parted := true }

/-- A child is told that its peer is gone, if nobody has the near end of its line open any more. -/
def part (m : Machine) (i : Nat) : Machine :=
  match m.children[i]? with
  | none => m
  | some c =>
    if c.near.isNone && !c.parted && !m.held i then m.update ((i : Int) + 1) (Child.part m.single)
    else m

/-- The children are told whose near ends nobody has open any more. One that goes away over that
lets go of those that it has kept, so there are as many rounds as there are children. -/
def release (m : Machine) : Machine :=
  (List.range m.children.length).foldl
    (fun m _ => (List.range m.children.length).foldl part m) m

/-- Lets some time pass. -/
def sleep (d : Duration) (m : Machine) : Machine :=
  { m.catchUp with clock := m.clock.later d }.release

/-- The lowest number that is not in use. -/
def lowestFree (used : List Int) : Int :=
  (((List.range (used.length + 1)).map Int.ofNat).find? fun n => !used.contains n).getD 0

/-- Makes a line, which takes the two lowest free numbers. -/
def openLine (m : Machine) : Except IoError Line × Machine :=
  if m.exhausted then (.error .tooManyOpen, m)
  else
    let near := lowestFree m.descriptors
    let far := lowestFree (near :: m.descriptors)
    (.ok ⟨near, far⟩, { m with descriptors := m.descriptors ++ [near, far] })

/-- Closes descriptors. -/
def close (m : Machine) (numbers : List Int) : Machine :=
  { m with descriptors := m.descriptors.filter fun n => !numbers.contains n }

/-- The children, by their places, whose near ends are open with one of some numbers. -/
def nearEnds (m : Machine) (numbers : List Int) : List Nat :=
  (List.range m.children.length).filter fun i =>
    (m.children[i]?.bind Child.near).any numbers.contains

/-- Forks a child. It inherits everything but the near end of its line, and keeps what its program
does. -/
def fork (line : Line) (program : Program) (m : Machine) : Except Errno Pid × Machine :=
  let inherited := m.descriptors.filter (· != line.near)
  let holds := m.nearEnds (program.keeps inherited line.far)
  let start : Child := { program, inherited, far := line.far, near := some line.near, holds }
  let child := start.takeUp []
  let pid : Pid := (m.children.length : Int) + 1
  (.ok pid, { (m.close [line.far]) with
    children := m.children ++ [child], reports := m.reports ++ child.view.report.toList })

/-- The child at the other end of a line. -/
def atLine? (m : Machine) (line : Line) : Option (Pid × Child) :=
  (m.pids.zip m.children).find? fun (_, c) => c.near == some line.near

/-- Writes to a child. -/
def write (line : Line) (m : Machine) (xs : Octets) (d : Option Descriptor) :
    Except IoError Nat × Machine :=
  match m.atLine? line with
  | none => (.error .brokenPipe, m)
  | some (pid, c) =>
    if c.view.exited || c.view.deaf then (.error .brokenPipe, m)
    else if xs.isEmpty then (.ok 0, m)
    else (.ok xs.length, (m.tell pid (.arrive ⟨xs, d.toList, false⟩)).release)

/-- Reads from a child, and lets it go on if there is nothing to read. -/
def read (line : Line) (m : Machine) (n : Nat) : Option Reading × Machine :=
  match m.atLine? line with
  | none => (some .atEnd, m)
  | some (pid, c) =>
    let after := if c.inbox.queue.isEmpty then c.catchUp else c
    let (r, inbox) := after.inbox.read false n
    (r, (m.put pid c { after with inbox }).release)

/-- The octets that can still be read from a child. -/
def inflow (line : Line) (m : Machine) : Nat :=
  match m.atLine? line with
  | none => 0
  | some (_, c) => c.catchUp.inbox.size

/-- The near end of a line as a transport. -/
def transport (line : Line) : Transport Machine where
  carriesDescriptors := true
  write := write line
  read := read line
  inflow := inflow line
  stalls _ := 0

/-- Closes the near end of a line. The child finds that its peer is gone, unless another one has
kept the near end. -/
def closeLine (line : Line) (m : Machine) : Machine :=
  match m.atLine? line with
  | none => m
  | some (pid, _) =>
    ((m.update pid fun c => { c with near := none, parted := false }).close [line.near]).release

/-- Takes note of a child's end, if it has come. A child that was taken note of is gone. -/
def reap (pid : Pid) (m : Machine) : Bool × Machine :=
  match m.child? pid with
  | none => (true, m)
  | some c =>
    if c.reaped then (true, m)
    else if c.view.exited then (true, m.update pid fun c => { c with reaped := true })
    else (false, m)

/-- Sends a child a signal. -/
def kill (pid : Pid) (signal : Signal) (m : Machine) : Bool × Machine :=
  match m.child? pid with
  | none => (false, m)
  | some c => if c.reaped then (false, m) else (true, (m.tell pid (.signal signal)).release)

/-- Whether there is no such child any more, not even one to take note of. -/
def gone (m : Machine) (pid : Pid) : Bool := (m.child? pid).all Child.reaped

/-- The machine as a host. -/
def host : Host Machine where
  now := clock
  sleep := sleep
  openLine := openLine
  dropLine line m := m.close [line.near, line.far]
  fork := fork
  transport := transport
  closeLine := closeLine
  reap := reap
  kill := kill

end Machine

end Overseer
