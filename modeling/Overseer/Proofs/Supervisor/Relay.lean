import Overseer.Proofs.Channel.Carrying
import Overseer.Proofs.Machine.Lines
import Overseer.Proofs.Process.Flow

/-!
# A line that takes its time

On a `Machine` a child takes up at once what its parent writes. A `Relay` is a machine whose lines
take their time: what the parent writes is in flight until it arrives, piece by piece, and each use
of a line by the parent may be given less than it asks for, or be interrupted. A script says all
that; it has a turn for each use, with the pieces that arrive ahead of it. So a run of the parent on
a relay is an interleaving of the two processes, in which either side's reads are cut in any way. A
read that finds nothing waits until all has arrived; past the end of the script nothing is held
back.

A child responds (`Program.Responds`) if what it has written is decided by how much has reached it,
and not by the pieces. Then the parent can write to it (`Relay.write_of_talks`) and finds in the
line what the child has written and is still to write (`Relay.carries_due`), whatever the script.
-/

namespace Overseer

/-- How one use of a line by the parent goes. -/
structure Relay.Turn where
  /-- The pieces that arrive ahead of it. Each has so many octets, if they are in flight. -/
  arrivals : List Nat := []
  /-- How much it takes or brings, unless it is interrupted. -/
  passes : WriteTurn

/-- A machine whose lines take their time. -/
structure Relay where
  machine : Machine
  /-- What the parent has written and has not arrived. -/
  flight : Stream := []
  turns : List Relay.Turn := []

namespace Relay

/-- A front part of what is in flight arrives. -/
def arrive (pid : Pid) (x : Relay) (n : Nat) : Relay :=
  if (x.flight.take n).isEmpty then x
  else
    let piece : Stream := x.flight.take n
    { x with
      machine := x.machine.tell pid (.arrive ⟨piece.octets, piece.descriptors, false⟩)
      flight := x.flight.drop n }

/-- All that is in flight arrives. -/
def settle (pid : Pid) (x : Relay) : Relay := x.arrive pid x.flight.length

/-- The pieces of a turn arrive. -/
def begin (pid : Pid) (x : Relay) (turn : Turn) : Relay := turn.arrivals.foldl (arrive pid) x

/-- The child at the other end of a line, as long as something can be written to it. -/
def listener? (line : Line) (x : Relay) : Option Pid :=
  match x.machine.atLine? line with
  | some (pid, c) => if c.view.exited || c.view.deaf then none else some pid
  | none => none

/-- Writes as the script says. -/
def write (line : Line) (x : Relay) (xs : Octets) (d : Option Descriptor) :
    Except IoError Nat × Relay :=
  match x.listener? line, x.turns with
  | none, _ => (.error .brokenPipe, x)
  | some _, [] => (.ok xs.length, { x with flight := x.flight ++ Stream.tagged xs d })
  | some pid, turn :: turns =>
    let x := { x with turns }.begin pid turn
    match turn.passes with
    | .take more =>
      (.ok (min (more + 1) xs.length),
        { x with flight := x.flight ++ Stream.tagged (xs.take (more + 1)) d })
    | .interrupt cause => (.error cause.1, x)

/-- Brings at most `n` octets. If there are none all that is in flight arrives first. -/
def bring (line : Line) (pid : Pid) (x : Relay) (n : Nat) : Option Reading × Relay :=
  let dry := (x.machine.child? pid).all fun c => c.inbox.queue.isEmpty
  let x := if dry then x.settle pid else x
  let (r, machine) := x.machine.read line n
  (r, { x with machine })

/-- Reads as the script says. -/
def read (line : Line) (x : Relay) (n : Nat) : Option Reading × Relay :=
  match x.machine.atLine? line, x.turns with
  | none, _ => (some .atEnd, x)
  | some (pid, _), [] => x.bring line pid n
  | some (pid, _), turn :: turns =>
    let x := { x with turns }.begin pid turn
    match turn.passes with
    | .take more => x.bring line pid (min n (more + 1))
    | .interrupt cause => (some (.failure cause.1), x)

/-- The octets that can still be read, and the turns. -/
def inflow (line : Line) (x : Relay) : Nat :=
  match x.machine.atLine? line with
  | none => x.turns.length
  | some (pid, _) => (x.settle pid).machine.inflow line + x.turns.length

/-- The near end of a line as a transport. -/
def transport (line : Line) : Transport Relay where
  carriesDescriptors := true
  write := write line
  read := read line
  inflow := inflow line
  stalls x := x.turns.length

/-- Has the machine do something. -/
def onMachine {α : Type} (f : Machine → α × Machine) (x : Relay) : α × Relay :=
  let (a, machine) := f x.machine
  (a, { x with machine })

/-- A relay as a host: it is its machine but for the lines. -/
def host : Host Relay where
  now x := x.machine.clock
  sleep d x := { x with machine := x.machine.sleep d }
  openLine := onMachine Machine.openLine
  dropLine line x := { x with machine := x.machine.close [line.near, line.far] }
  fork line program := onMachine (Machine.fork line program)
  transport := transport
  closeLine line x := { x with machine := x.machine.closeLine line }
  reap pid := onMachine (Machine.reap pid)
  kill pid signal := onMachine (Machine.kill pid signal)

end Relay

/-! ## A child that responds -/

/-- What a program has written is decided by how much of a stream has reached it, whatever the
pieces; it goes on reading. -/
structure Program.Responds (program : Program) (inherited : List Int) (far : Int)
    (incoming : Stream) (answers : Nat → List Segment) : Prop where
  view_eq : ∀ segments : List Segment, (∀ s ∈ segments, s.Plain) →
    Segment.flow segments <+: incoming →
    let view := program.view inherited far (segments.map .arrive)
    view.sent = answers (Segment.flow segments).length ∧ view.exited = false ∧ view.deaf = false
  grows : ∀ {n n' : Nat}, n ≤ n' → answers n <+: answers n'
  plain : ∀ n, ∀ s ∈ answers n, s.Plain

namespace Machine.Child

/-- A child that responds, to which a front part `told` of a stream was told. Of what it has written
the parent has read `taken`. -/
structure Talks (incoming : Stream) (answers : Nat → List Segment) (c : Child)
    (told taken : Stream) : Prop where
  responds : c.program.Responds c.inherited c.far incoming answers
  told_eq : ∃ segments : List Segment, c.told = segments.map .arrive ∧
    (∀ s ∈ segments, s.Plain) ∧ Segment.flow segments = told
  told_isPrefix : told <+: incoming
  untold_eq : c.untold = []
  view_eq : c.view = c.program.view c.inherited c.far c.told
  shut_eq : c.inbox.shut = false
  reset_eq : c.inbox.reset = false
  queued : ∀ s ∈ c.inbox.queue, s.Plain
  written : taken ++ Segment.flow c.inbox.queue = Segment.flow (answers told.length)

variable {incoming told taken piece : Stream} {answers : Nat → List Segment} {c : Child}

/-- What is seen of the child. -/
theorem Talks.seen (h : c.Talks incoming answers told taken) :
    c.view.sent = answers told.length ∧ c.view.exited = false ∧ c.view.deaf = false := by
  obtain ⟨segments, htold, hplain, rfl⟩ := h.told_eq
  rw [h.view_eq, htold]
  exact h.responds.view_eq segments hplain h.told_isPrefix

/-- A child that takes up more of the stream has written more, and goes on. -/
theorem Talks.takeUp {segments : List Segment} (h : c.Talks incoming answers told taken)
    (hplain : ∀ s ∈ segments, s.Plain) (hincoming : told ++ Segment.flow segments <+: incoming) :
    (c.takeUp (segments.map .arrive)).Talks incoming answers (told ++ Segment.flow segments)
      taken := by
  obtain ⟨hsent, -, -⟩ := h.seen
  obtain ⟨before, htold, hbefore, rfl⟩ := h.told_eq
  have hmap : c.told ++ segments.map .arrive = (before ++ segments).map Stimulus.arrive := by
    rw [htold, List.map_append]
  have hall : ∀ s ∈ before ++ segments, s.Plain := fun s hmem =>
    (List.mem_append.1 hmem).elim (hbefore s) (hplain s)
  rw [← Segment.flow_append] at hincoming ⊢
  obtain ⟨hsent', hexited, -⟩ := h.responds.view_eq _ hall hincoming
  have hle : (Segment.flow before).length ≤ (Segment.flow (before ++ segments)).length := by
    rw [Segment.flow_append, List.length_append]
    exact Nat.le_add_right ..
  obtain ⟨more, hmore⟩ := h.responds.grows hle
  have hinbox : (c.takeUp (segments.map .arrive)).inbox =
      { c.inbox with queue := c.inbox.queue ++ more } := by
    have hnew : (c.program.view c.inherited c.far (c.told ++ segments.map .arrive)).sent.drop
        c.view.sent.length = more := by
      rw [hmap, hsent', hsent, ← hmore, List.drop_left]
    have hgoes : (c.program.view c.inherited c.far (c.told ++ segments.map .arrive)).exited =
        false := by
      rw [hmap]
      exact hexited
    simp only [Child.takeUp, hgoes, hnew]
    rfl
  refine ⟨h.responds, ⟨_, hmap, hall, rfl⟩, hincoming, h.untold_eq, rfl, ?_, ?_, ?_, ?_⟩
  · rw [hinbox]
    exact h.shut_eq
  · rw [hinbox]
    exact h.reset_eq
  · rw [hinbox]
    intro s hmem
    rcases List.mem_append.1 hmem with hmem | hmem
    · exact h.queued s hmem
    · exact h.responds.plain _ s (hmore ▸ List.mem_append_right _ hmem)
  · rw [hinbox, Segment.flow_append, ← List.append_assoc, h.written, ← hmore, Segment.flow_append]

/-- What happens to the child happens at once. -/
theorem Talks.tell {segment : Segment} (h : c.Talks incoming answers told taken)
    (hplain : segment.Plain) (hincoming : told ++ segment.stream <+: incoming) :
    (c.tell false (.arrive segment)).Talks incoming answers (told ++ segment.stream) taken := by
  have htell : c.tell false (.arrive segment) = c.takeUp ([segment].map .arrive) := by
    rw [Child.tell, h.seen.2.1]
    rfl
  have hflow : Segment.flow [segment] = segment.stream := List.append_nil _
  rw [htell, ← hflow]
  refine h.takeUp (fun s hmem => ?_) (hflow.symm ▸ hincoming)
  rw [List.mem_singleton.1 hmem]
  exact hplain

/-- The parent reads a front part of what the child has written. -/
theorem Talks.read {front : Stream} {queue : List Segment}
    (h : c.Talks incoming answers told taken)
    (hflow : Segment.flow c.inbox.queue = front ++ Segment.flow queue)
    (hplain : ∀ s ∈ queue, s.Plain) :
    { c with inbox := { c.inbox with queue } : Child }.Talks incoming answers told
      (taken ++ front) := by
  refine ⟨h.responds, h.told_eq, h.told_isPrefix, h.untold_eq, h.view_eq, h.shut_eq, h.reset_eq,
    hplain, ?_⟩
  rw [List.append_assoc, ← hflow, h.written]

/-- A child that was just forked. -/
theorem talks_start {program : Program} {inherited : List Int} {far : Int} {near : Option Int}
    {holds : List Nat} (h : program.Responds inherited far incoming answers) :
    (takeUp { program, inherited, far, near, holds } []).Talks incoming answers [] [] := by
  obtain ⟨hsent, hexited, -⟩ := h.view_eq [] nofun (List.nil_prefix)
  have hinbox : (takeUp { program, inherited, far, near, holds } []).inbox =
      { queue := answers 0 } := by
    have hsent' : (program.view inherited far []).sent = answers 0 := hsent
    have hexited' : (program.view inherited far []).exited = false := hexited
    simp only [Child.takeUp, List.append_nil, hsent', hexited']
    rfl
  refine ⟨h, ⟨[], rfl, nofun, rfl⟩, List.nil_prefix, rfl, rfl, ?_, ?_, ?_, ?_⟩
  · rw [hinbox]
  · rw [hinbox]
  · rw [hinbox]
    exact h.plain 0
  · rw [hinbox]
    rfl

end Machine.Child

/-! ## The machine of a single child -/

namespace Machine

variable {m : Machine} {c : Child} {line : Line}

/-- A machine has one child, which is at the far end of a line. -/
structure Single (m : Machine) (line : Line) (c : Child) : Prop where
  children_eq : m.children = [c]
  near_eq : c.near = some line.near
  single_eq : m.single = false

theorem Single.child?_eq (h : m.Single line c) : m.child? 1 = some c := by
  show m.children[0]? = _
  rw [h.children_eq]
  rfl

theorem Single.atLine?_eq (h : m.Single line c) : m.atLine? line = some (1, c) := by
  have hat : (c.near == some line.near) = true := by rw [h.near_eq]; exact beq_self_eq_true _
  have hpids : m.pids = [1] := by
    rw [pids, h.children_eq]
    rfl
  rw [atLine?, hpids, h.children_eq]
  show List.find? _ [((1 : Pid), c)] = _
  rw [List.find?_singleton]
  exact if_pos hat

/-- What changes of the machine when its child does. -/
theorem Single.put {c' : Child} (h : m.Single line c) (hnear : c'.near = c.near) :
    (m.put 1 c c').Single line c' := by
  refine ⟨?_, hnear.trans h.near_eq, h.single_eq⟩
  show m.children.set 0 c' = _
  rw [h.children_eq]
  rfl

theorem Single.tell (h : m.Single line c) (stimulus : Stimulus) :
    (m.tell 1 stimulus).Single line (c.tell false stimulus) := by
  have hnear : (c.tell false stimulus).near = c.near := by
    unfold Child.tell
    split
    · rfl
    · rfl
  have htell : m.tell 1 stimulus = m.put 1 c (c.tell false stimulus) := by
    rw [Machine.tell, update, h.child?_eq, h.single_eq]
  rw [htell]
  exact h.put hnear

/-- A read of the line reads what the child has written. -/
theorem Single.read_eq (h : m.Single line c) (huntold : c.untold = []) (n : Nat) :
    m.read line n = ((c.inbox.read false n).1,
      m.put 1 c { c with inbox := (c.inbox.read false n).2 }) := by
  have hcatchUp : c.catchUp = c := by
    rw [Child.catchUp, huntold]
    rfl
  have hput : (m.put 1 c { c with inbox := (c.inbox.read false n).2 }).Single line
      { c with inbox := (c.inbox.read false n).2 } := h.put rfl
  have hopen : ∀ d ∈ (m.put 1 c { c with inbox := (c.inbox.read false n).2 }).children,
      d.near ≠ none := by
    intro d hd
    rw [hput.children_eq, List.mem_singleton] at hd
    rw [hd, hput.near_eq]
    exact Option.some_ne_none _
  rw [read, h.atLine?_eq]
  simp only [hcatchUp, ite_self, release_of_open hopen]

end Machine

/-! ## The relay of a child that responds -/

namespace Relay

variable {line : Line} {incoming sent taken s : Stream} {answers : Nat → List Segment} {x : Relay}

/-- A relay whose child responds. The parent has written `sent`, of which a part is in flight, and
has read `taken`. -/
inductive Talks (line : Line) (incoming : Stream) (answers : Nat → List Segment) (x : Relay)
    (sent taken : Stream) : Prop
  | intro {c : Machine.Child} {told : Stream} (hsingle : x.machine.Single line c)
      (htalks : c.Talks incoming answers told taken) (hflight : told ++ x.flight = sent)
      (hsent : sent <+: incoming)

/-- What arrives is still what was written. -/
theorem Talks.arrive (h : x.Talks line incoming answers sent taken)
    (hnone : incoming.descriptors = []) (n : Nat) :
    (x.arrive 1 n).Talks line incoming answers sent taken ∧ (x.arrive 1 n).turns = x.turns := by
  obtain @⟨c, told, hsingle, htalks, hflight, hsent⟩ := h
  unfold Relay.arrive
  split
  · exact ⟨.intro hsingle htalks hflight hsent, rfl⟩
  · next hne =>
    refine ⟨?_, rfl⟩
    generalize hpiece : x.flight.take n = piece at hne ⊢
    have hsplit : told ++ piece ++ x.flight.drop n = sent := by
      rw [← hpiece, List.append_assoc, List.take_append_drop, hflight]
    have hincoming : told ++ piece <+: incoming := List.IsPrefix.trans ⟨_, hsplit⟩ hsent
    have hds : Stream.descriptors piece = [] := by
      obtain ⟨rest, rfl⟩ := hincoming
      rw [Stream.descriptors_append, Stream.descriptors_append] at hnone
      exact (List.append_eq_nil_iff.1 (List.append_eq_nil_iff.1 hnone).1).2
    let segment : Segment := ⟨Stream.octets piece, Stream.descriptors piece, false⟩
    have hstream : segment.stream = piece := by
      rw [Segment.stream, show segment.descriptors = [] from hds]
      exact Stream.tagged_octets hds
    have hplain : segment.Plain := by
      refine ⟨?_, ?_⟩
      · show Stream.octets piece ≠ []
        rw [Ne, Stream.octets_eq_nil]
        exact fun hnil => hne (List.isEmpty_iff.2 hnil)
      · show (Stream.descriptors piece).length ≤ 1
        rw [hds]
        exact Nat.zero_le _
    rw [← hstream] at hsplit hincoming
    exact .intro (hsingle.tell _) (htalks.tell hplain hincoming) hsplit hsent

theorem Talks.begin (h : x.Talks line incoming answers sent taken)
    (hnone : incoming.descriptors = []) (turn : Turn) :
    (x.begin 1 turn).Talks line incoming answers sent taken ∧ (x.begin 1 turn).turns = x.turns := by
  unfold Relay.begin
  induction turn.arrivals generalizing x with
  | nil => exact ⟨h, rfl⟩
  | cons n arrivals ih =>
    obtain ⟨harrive, hturns⟩ := h.arrive hnone n
    obtain ⟨hrest, hturns'⟩ := ih harrive
    exact ⟨hrest, hturns'.trans hturns⟩

/-- A turn of the script leaves fewer of them. -/
theorem Talks.begin_next {turn : Turn} {turns : List Turn}
    (h : x.Talks line incoming answers sent taken) (hnone : incoming.descriptors = [])
    (hscript : x.turns = turn :: turns) :
    ({ x with turns : Relay }.begin 1 turn).Talks line incoming answers sent taken ∧
      ({ x with turns : Relay }.begin 1 turn).turns.length < x.turns.length := by
  obtain ⟨hsingle, hchild, hflight, hsent⟩ := h
  have hpopped : { x with turns : Relay }.Talks line incoming answers sent taken :=
    .intro hsingle hchild hflight hsent
  obtain ⟨hbegun, hturns⟩ := hpopped.begin hnone turn
  refine ⟨hbegun, ?_⟩
  rw [hturns, hscript]
  exact Nat.lt_succ_self _

/-- The child is at the far end of the line. -/
theorem Talks.atLine?_eq (h : x.Talks line incoming answers sent taken) :
    ∃ c, x.machine.atLine? line = some (1, c) := by
  obtain ⟨hsingle, -, -, -⟩ := h
  exact ⟨_, hsingle.atLine?_eq⟩

/-- When all has arrived nothing is in flight. -/
theorem flight_settle (pid : Pid) (x : Relay) : (x.settle pid).flight = [] := by
  unfold settle Relay.arrive
  rw [List.take_length]
  split
  · next hempty => exact List.isEmpty_iff.1 hempty
  · exact List.drop_length

/-! ## Reading -/

/-- What is on its way to the parent: what the child has written, and what it will have written when
all has arrived. -/
def Due (line : Line) (incoming : Stream) (answers : Nat → List Segment) (sent : Stream)
    (x : Relay) (s : Stream) : Prop :=
  ∃ taken, x.Talks line incoming answers sent taken ∧
    taken ++ s = Segment.flow (answers sent.length)

/-- What can flow in is what is due, and the turns to come. -/
theorem Due.inflow_eq (h : x.Due line incoming answers sent s)
    (hnone : incoming.descriptors = []) :
    x.inflow line = s.length + x.turns.length := by
  obtain ⟨taken, htalks, hdue⟩ := h
  obtain ⟨c₀, hat⟩ := htalks.atLine?_eq
  obtain ⟨hsettled, -⟩ := htalks.arrive hnone x.flight.length
  have hflight : (x.arrive 1 x.flight.length).flight = [] := flight_settle 1 x
  obtain @⟨c, told, hsingle, hchild, rfl, hsent⟩ := hsettled
  rw [hflight, List.append_nil] at hdue
  have hqueue : s = Segment.flow c.inbox.queue := by
    rw [← hchild.written] at hdue
    exact List.append_cancel_left hdue
  have hcatchUp : c.catchUp = c := by
    rw [Machine.Child.catchUp, hchild.untold_eq]
    rfl
  rw [inflow, hat]
  show (x.arrive 1 x.flight.length).machine.inflow line + _ = _
  rw [Machine.inflow, hsingle.atLine?_eq]
  simp only [hcatchUp, Pipe.size, hqueue, Segment.length_flow]

/-- A relay that is read finds something in the line, or all has arrived. -/
theorem Talks.ready (h : x.Talks line incoming answers sent taken)
    (hnone : incoming.descriptors = []) :
    ∃ (c : Machine.Child) (told : Stream) (y : Relay),
      (if (x.machine.child? 1).all fun c => c.inbox.queue.isEmpty then x.settle 1 else x) = y ∧
      y.turns = x.turns ∧ y.machine.Single line c ∧ c.Talks incoming answers told taken ∧
      told ++ y.flight = sent ∧ sent <+: incoming ∧ (c.inbox.queue = [] → y.flight = []) := by
  obtain ⟨hsettled, hturns⟩ := h.arrive hnone x.flight.length
  obtain @⟨c, told, hsingle, htalks, hflight, hsent⟩ := h
  rw [hsingle.child?_eq, Option.all_some]
  split
  · obtain @⟨c', told', hsingle', htalks', hflight', -⟩ := hsettled
    exact ⟨c', told', _, rfl, hturns, hsingle', htalks', hflight', hsent,
      fun _ => flight_settle 1 x⟩
  · next hempty =>
    exact ⟨c, told, x, rfl, rfl, hsingle, htalks, hflight, hsent,
      fun hnil => absurd (List.isEmpty_iff.2 hnil) hempty⟩

/-- What a read brings that is not interrupted: a front part of what is due. -/
theorem Due.bring (h : x.Due line incoming answers sent s) (hnone : incoming.descriptors = [])
    {n : Nat} (hn : n ≠ 0) :
    (∃ (front back : Stream) (x' : Relay), front ≠ [] ∧ s = front ++ back ∧
      x'.Due line incoming answers sent back ∧ x'.turns = x.turns ∧
      x.bring line 1 n = (some (.data front.octets front.descriptors), x')) ∨
    ∃ x' : Relay, s = [] ∧ x'.Due line incoming answers sent [] ∧
      x.bring line 1 n = (none, x') := by
  obtain ⟨taken, htalks, hdue⟩ := h
  obtain ⟨c, told, y, hy, hturns, hsingle, hchild, hflight, hsent, hdry⟩ := htalks.ready hnone
  have htold : told.length ≤ sent.length := by
    rw [← hflight, List.length_append]
    exact Nat.le_add_right ..
  obtain ⟨later, hlater⟩ := hchild.responds.grows htold
  have hwritten := hchild.written
  have htakes := Pipe.takes_read hchild.queued hchild.shut_eq hchild.reset_eq hn
  simp only [Relay.bring, hy, hsingle.read_eq hchild.untold_eq]
  generalize c.inbox.read false n = out at htakes ⊢
  cases htakes with
  | @front front queue hne hflow hplain =>
    rw [hflow] at hwritten
    let c' : Machine.Child := { c with inbox := { c.inbox with queue } }
    refine .inl ⟨front, Segment.flow queue ++ Segment.flow later,
      { y with machine := y.machine.put 1 c c' }, hne, ?_, ⟨taken ++ front,
        .intro (hsingle.put rfl) (hchild.read hflow hplain) hflight hsent, ?_⟩, hturns, rfl⟩
    · rw [← hlater, Segment.flow_append, ← hwritten, List.append_assoc, List.append_assoc] at hdue
      exact List.append_cancel_left hdue
    · rw [← hlater, Segment.flow_append, ← hwritten, List.append_assoc, List.append_assoc,
        List.append_assoc]
  | nothing hempty =>
    -- all has arrived, so what is due is in the line
    rw [hdry hempty, List.append_nil] at hflight
    subst hflight
    rw [hempty] at hwritten
    have hs : s = [] := by
      rw [← hwritten, Segment.flow_nil, List.append_nil] at hdue
      exact List.append_right_eq_self.1 hdue
    refine .inr ⟨_, hs, ⟨taken, .intro (hsingle.put rfl) hchild ?_ hsent, hwritten⟩, rfl⟩
    rw [hdry hempty, List.append_nil]

/-- **The line brings what is due**, whatever arrives when and however the reads are cut. -/
theorem carries_due (line : Line) (answers : Nat → List Segment) (sent : Stream)
    (hnone : incoming.descriptors = []) :
    (transport line).Carries (Due line incoming answers sent) true := by
  intro x s h
  have hinflow := h.inflow_eq hnone
  have hbrings {y : Relay} {n : Nat} (hy : y.Due line incoming answers sent s) (hn : n ≠ 0)
      (hle : y.turns.length ≤ x.turns.length) :
      (transport line).Yields (Due line incoming answers sent) true x s (y.bring line 1 n) := by
    rcases hy.bring hnone hn with
      ⟨front, back, x', hne, hs, hdue, hturns, hbring⟩ | ⟨x', hs, hdue, hbring⟩
    · rw [hbring]
      refine .brings hne hs hdue ?_
      show x'.inflow line < x.inflow line
      have hpos := List.length_pos_iff.2 hne
      rw [hinflow, hdue.inflow_eq hnone, hturns, hs, List.length_append]
      omega
    · rw [hbring]
      exact .dry hs hdue
  have hchunk : Channel.chunkSize ≠ 0 := by decide
  obtain ⟨taken, htalks, hdue⟩ := h
  obtain ⟨c, hat⟩ := htalks.atLine?_eq
  show (transport line).Yields _ true x s (x.read line Channel.chunkSize)
  unfold Relay.read
  rw [hat]
  cases hscript : x.turns with
  | nil => exact hbrings ⟨taken, htalks, hdue⟩ hchunk (Nat.le_refl _)
  | cons turn turns =>
    obtain ⟨hbegun, hlt⟩ := htalks.begin_next hnone hscript
    have hrest : Due line incoming answers sent ({ x with turns : Relay }.begin 1 turn) s :=
      ⟨taken, hbegun, hdue⟩
    cases hpasses : turn.passes with
    | take more =>
      simp only [hpasses]
      exact hbrings hrest (by omega) (Nat.le_of_lt hlt)
    | interrupt cause =>
      simp only [hpasses]
      refine .interrupted rfl cause.2 hrest ?_
      show Relay.inflow line _ < x.inflow line
      rw [hinflow, hrest.inflow_eq hnone]
      exact Nat.add_lt_add_left hlt _

/-! ## Writing -/

variable {xs : Octets} {d : Option Descriptor}

/-- The child listens. -/
theorem Talks.listener?_eq (h : x.Talks line incoming answers sent taken) :
    x.listener? line = some 1 := by
  obtain ⟨hsingle, hchild, -, -⟩ := h
  obtain ⟨-, hexited, hdeaf⟩ := hchild.seen
  rw [listener?, hsingle.atLine?_eq]
  simp only [hexited, hdeaf, Bool.or_false, Bool.false_eq_true, if_false]

/-- What the parent writes is in flight. -/
theorem Talks.extend (h : x.Talks line incoming answers sent taken) {more : Stream}
    (hincoming : sent ++ more <+: incoming) :
    { x with flight := x.flight ++ more : Relay }.Talks line incoming answers (sent ++ more)
      taken := by
  obtain ⟨hsingle, hchild, hflight, -⟩ := h
  refine .intro hsingle hchild ?_ hincoming
  rw [← hflight, List.append_assoc]

/-- What a write comes to: a part is accepted, and the descriptor with it, or it is interrupted. -/
theorem Talks.write (h : x.Talks line incoming answers sent taken)
    (hnone : incoming.descriptors = []) (hne : xs ≠ [])
    (hincoming : sent ++ Stream.tagged xs d <+: incoming) :
    (∃ (n : Nat) (x' : Relay), n ≠ 0 ∧ x.write line xs d = (.ok n, x') ∧
      x'.turns.length ≤ x.turns.length ∧
      ∃ part, part ++ Stream.tagged (xs.drop n) none = Stream.tagged xs d ∧
        x'.Talks line incoming answers (sent ++ part) taken) ∨
    ∃ (e : IoError) (x' : Relay), e.kind = .interrupted ∧ x.write line xs d = (.error e, x') ∧
      x'.turns.length < x.turns.length ∧ x'.Talks line incoming answers sent taken := by
  have hpos := List.length_pos_iff.2 hne
  have hlistener := h.listener?_eq
  by_cases hscript : x.turns = []
  · refine .inl ⟨xs.length, { x with flight := x.flight ++ Stream.tagged xs d }, by omega, ?_,
      Nat.le_refl _, _, ?_, h.extend hincoming⟩
    · rw [Relay.write, hlistener, hscript]
    · rw [List.drop_length, Stream.tagged_nil, List.append_nil]
  · obtain ⟨turn, turns, hscript⟩ := List.exists_cons_of_ne_nil hscript
    obtain ⟨hbegun, hlt⟩ := h.begin_next hnone hscript
    have hwrite : x.write line xs d =
        match turn.passes with
        | .take more => (.ok (min (more + 1) xs.length), { { x with turns }.begin 1 turn with
          flight := ({ x with turns : Relay }.begin 1 turn).flight ++
            Stream.tagged (xs.take (more + 1)) d })
        | .interrupt cause => (.error cause.1, { x with turns }.begin 1 turn) := by
      rw [Relay.write, hlistener, hscript]
    generalize { x with turns : Relay }.begin 1 turn = y at hbegun hwrite hlt
    rw [hwrite]
    cases turn.passes with
    | take more =>
      have hcut := Stream.tagged_cut xs d (Nat.succ_ne_zero more)
      have hpart : sent ++ Stream.tagged (xs.take (more + 1)) d <+: incoming := by
        refine List.IsPrefix.trans ?_ hincoming
        rw [← hcut, ← List.append_assoc]
        exact List.prefix_append ..
      refine .inl ⟨min (more + 1) xs.length,
        { y with flight := y.flight ++ Stream.tagged (xs.take (more + 1)) d }, by omega, rfl,
        Nat.le_of_lt hlt, _, ?_, hbegun.extend hpart⟩
      rw [← List.drop_eq_drop_min]
      exact hcut
    | interrupt cause => exact .inr ⟨cause.1, y, cause.2, rfl, hlt, hbegun⟩

theorem writeWithin_of_talks (hnone : incoming.descriptors = []) {writes : Nat}
    (h : x.Talks line incoming answers sent taken)
    (hincoming : sent ++ Stream.tagged xs d <+: incoming)
    (hwrites : xs.length + x.turns.length + 1 ≤ writes) :
    ∃ x', Channel.writeWithin (transport line) writes xs d x = (.ok (), x') ∧
      x'.Talks line incoming answers (sent ++ Stream.tagged xs d) taken := by
  induction writes generalizing x xs d sent with
  | zero => omega
  | succ writes ih =>
    rw [Channel.writeWithin]
    by_cases hne : xs = []
    · subst hne
      refine ⟨x, rfl, ?_⟩
      rwa [Stream.tagged_nil, List.append_nil]
    · rw [if_neg (fun hempty => hne (List.isEmpty_iff.1 hempty))]
      have hpos := List.length_pos_iff.2 hne
      rcases h.write hnone hne hincoming with
        ⟨n, x', hn, hwrite, hle, part, hpart, h'⟩ | ⟨e, x', he, hwrite, hlt, h'⟩
      · rw [← hpart, ← List.append_assoc] at hincoming ⊢
        obtain ⟨n, rfl⟩ := Nat.exists_eq_succ_of_ne_zero hn
        rw [show (transport line).write x xs d = _ from hwrite]
        refine ih h' hincoming ?_
        rw [List.length_drop]
        omega
      · rw [show (transport line).write x xs d = _ from hwrite]
        simp only [he, if_true]
        exact ih h' hincoming (by omega)

/-- **What the parent writes is accepted to its end**, however the line takes it apart. -/
theorem write_of_talks (hnone : incoming.descriptors = [])
    (h : x.Talks line incoming answers sent taken)
    (hincoming : sent ++ Stream.tagged xs d <+: incoming) :
    ∃ x', Channel.writeFrame (transport line) xs d x = (.ok (), x') ∧
      x'.Talks line incoming answers (sent ++ Stream.tagged xs d) taken :=
  writeWithin_of_talks hnone h hincoming (Nat.le_refl _)

/-! ## Forking -/

/-- A relay on which nothing was forked yet, and on which something can be. -/
structure Fresh (x : Relay) : Prop where
  children_eq : x.machine.children = []
  single_eq : x.machine.single = false
  exhausted_eq : x.machine.exhausted = false
  flight_eq : x.flight = []

theorem openLine_of_fresh (h : x.Fresh) :
    ∃ line x', host.openLine x = (.ok line, x') ∧ x'.Fresh := by
  let near := Machine.lowestFree x.machine.descriptors
  let far := Machine.lowestFree (near :: x.machine.descriptors)
  let machine : Machine :=
    { x.machine with descriptors := x.machine.descriptors ++ [near, far] }
  have hopen : x.machine.openLine = (.ok ⟨near, far⟩, machine) :=
    if_neg (by rw [h.exhausted_eq]; nofun)
  refine ⟨⟨near, far⟩, { x with machine }, ?_, h.children_eq, h.single_eq, h.exhausted_eq,
    h.flight_eq⟩
  show onMachine Machine.openLine x = _
  rw [onMachine, hopen]

/-- The first child that is forked, at the far end of a line, has been told nothing. -/
theorem talks_fork {program : Program} (line : Line) (hfresh : x.Fresh)
    (h : program.Responds (x.machine.descriptors.filter (· != line.near)) line.far incoming
      answers) :
    ∃ x', host.fork line program x = (.ok 1, x') ∧ x'.Talks line incoming answers [] [] := by
  let c : Machine.Child :=
    { program
      inherited := x.machine.descriptors.filter (· != line.near)
      far := line.far
      near := some line.near
      holds := x.machine.nearEnds
        (program.keeps (x.machine.descriptors.filter (· != line.near)) line.far) }
  have hfork : host.fork line program x = (.ok ((x.machine.children.length : Int) + 1),
      { x with machine := { x.machine.close [line.far] with
        children := x.machine.children ++ [c.takeUp []]
        reports := x.machine.reports ++ (c.takeUp []).view.report.toList } }) := rfl
  rw [hfork, hfresh.children_eq]
  refine ⟨_, rfl, .intro (c := c.takeUp []) ⟨rfl, rfl, hfresh.single_eq⟩
    (Machine.Child.talks_start h) ?_ List.nil_prefix⟩
  exact hfresh.flight_eq

end Relay

end Overseer
