import Overseer.Proofs.Loop.Heeding
import Overseer.Proofs.Machine.Lines
import Overseer.Proofs.Supervisor.Operation
import Overseer.Proofs.Supervisor.Sweep
import Mathlib.Logic.Relation

/-!
# Nobody else holds the near end of a line

Several supervisors may work in one parent. A child that is forked inherits whatever its parent has
open, the near ends of the lines to the other children among it. As long as it held one of those,
the other child would not find the end of its stream when the parent closes that line.

A `Machine` has the numbers of the open descriptors. A `Family` has beside them what the descriptors
of the parent and of each child refer to, and `Family.Step` says what the parent can do: supervisors
are started, lines are closed, and other files are opened and closed. Every child sweeps, and no
keep list names the near end of another line (`Family.Discreet`); then no child ever holds a near
end, and the parent holds each of them once (`Family.Sound`).
-/

namespace Overseer

/-! ## Starting on a machine -/

namespace Supervisor

variable {σ : Type} {s s' : Scene Machine σ}

/-- **A start that is refused** leaves the machine as it was: the line that was made is given up. -/
theorem host_of_refused {e : SupervisorError} (h : start Machine.host s = (.error e, s')) :
    s'.host = s.host := by
  by_cases hlife : s.supervisor.life = .notStarted
  · rw [start, bind_run, get_run, hlife] at h
    simp only [bind_run, announce_run, onHost_run] at h
    generalize hopen : Machine.host.openLine s.host = answer at h
    obtain ⟨line, machine⟩ := answer
    cases line with
    | error e =>
      cases h
      exact Machine.openLine_error hopen
    | ok line =>
      simp only [bind_run, prepareFork_run] at h
      generalize s.supervisor.server.beforeFork {} s.supervisor.state = answer at h
      obtain ⟨keep, state⟩ := answer
      obtain ⟨hnear, hfar, -, rfl⟩ := Machine.openLine_ok hopen
      cases keep with
      | ok keep => cases h
      | error e =>
        cases h
        exact Machine.close_line hnear hfar
  · rw [start_of_born _ hlife] at h
    cases h
    rfl

/-- **A start that is not refused** makes a line and forks a child on it, with what the hook before
the fork has the child keep. -/
theorem host_of_started (h : start Machine.host s = (.ok (), s')) :
    ∃ line machine keep state, s.host.openLine = (.ok line, machine) ∧
      s.supervisor.server.beforeFork {} s.supervisor.state = (.ok keep, state) ∧
      s'.host = (machine.fork line
        (Child.program s.supervisor.server s.supervisor.config keep state)).2 := by
  by_cases hlife : s.supervisor.life = .notStarted
  · rw [start, bind_run, get_run, hlife] at h
    simp only [bind_run, announce_run, onHost_run] at h
    generalize hopen : Machine.host.openLine s.host = answer at h
    obtain ⟨line, machine⟩ := answer
    cases line with
    | error e => cases h
    | ok line =>
      simp only [bind_run, prepareFork_run] at h
      generalize hkeep : s.supervisor.server.beforeFork {} s.supervisor.state = answer at h
      obtain ⟨keep, state⟩ := answer
      cases keep with
      | error e => cases h
      | ok keep =>
        cases h
        exact ⟨line, machine, keep, state, hopen, rfl, rfl⟩
  · rw [start_of_born _ hlife] at h
    cases h

end Supervisor

/-! ## What descriptors refer to -/

/-- What a descriptor refers to: an end of the line to the child of some number, from 0 on, or
something else. -/
inductive File where
  | near (child : Nat)
  | far (child : Nat)
  | other
  deriving DecidableEq

/-- The open descriptors of a process, with what they refer to. -/
abbrev FileTable := List (Int × File)

/-- The table after a number was closed. -/
def FileTable.less (t : FileTable) (n : Int) : FileTable := t.filter fun e => e.1 != n

/-- The table when nothing but some numbers is left open. -/
def FileTable.only (t : FileTable) (ns : List Int) : FileTable := t.filter fun e => ns.contains e.1

theorem FileTable.mem_less {t : FileTable} {e : Int × File} {n : Int} :
    e ∈ t.less n ↔ e ∈ t ∧ e.1 ≠ n := by
  rw [less, List.mem_filter, bne_iff_ne]

theorem FileTable.mem_only {t : FileTable} {e : Int × File} {ns : List Int} :
    e ∈ t.only ns ↔ e ∈ t ∧ e.1 ∈ ns := by
  rw [only, List.mem_filter, List.contains_iff_mem]

theorem FileTable.map_less (t : FileTable) (n : Int) :
    (t.less n).map Prod.fst = (t.map Prod.fst).filter (· != n) := by
  rw [less, List.filter_map]
  rfl

/-- The numbers that are left open are those of the sweep. -/
theorem FileTable.map_only_sweep (t : FileTable) (config : Config) (keep : KeepList)
    (socket : Int) :
    (t.only (Child.sweep config keep socket (t.map Prod.fst))).map Prod.fst =
      Child.sweep config keep socket (t.map Prod.fst) := by
  have hmap : ∀ ns, (t.only ns).map Prod.fst = (t.map Prod.fst).filter ns.contains := fun ns => by
    rw [only, List.filter_map]
    rfl
  rw [hmap]
  unfold Child.sweep
  split
  · refine List.filter_congr fun n hn => ?_
    rw [Bool.eq_iff_iff, List.contains_iff_mem, List.mem_filter]
    exact and_iff_right hn
  · exact List.filter_eq_self.2 fun n hn => List.contains_iff_mem.2 hn

/-- A parent on its machine. -/
structure Family where
  machine : Machine
  /-- What the parent has open. -/
  own : FileTable
  /-- What each child has open when it has swept. -/
  children : List FileTable := []

namespace Family

variable {f f' : Family}

/-- What the parent has open when it has made a line for another child. -/
def withLine (f : Family) (line : Line) : FileTable :=
  f.own ++ [(line.near, .near f.children.length), (line.far, .far f.children.length)]

/-- What a child inherits that is forked on a line. -/
def inherited (f : Family) (line : Line) : FileTable := (f.withLine line).less line.near

/-- A child was forked on a line, and has swept. The parent has closed the far end. -/
def fork (f : Family) (line : Line) (config : Config) (keep : KeepList) (machine : Machine) :
    Family where
  machine
  own := (f.withLine line).less line.far
  children := f.children ++ [(f.inherited line).only
    (Child.sweep config keep line.far ((f.inherited line).map Prod.fst))]

/-- The parent closes the near end of a line. -/
def closeLine (f : Family) (line : Line) : Family :=
  { f with machine := f.machine.closeLine line, own := f.own.less line.near }

/-- No process has the near end of the line to a child open, so the child finds the end of the
stream. -/
def Abandoned (f : Family) (child : Nat) : Prop :=
  (∀ e ∈ f.own, e.2 ≠ .near child) ∧ ∀ t ∈ f.children, ∀ e ∈ t, e.2 ≠ .near child

/-- The settings and the keep list of a child that is to be forked: it sweeps, and the numbers that
are named are not those of the near end of a line. The standard ones count as named, open or not
(`Sound.keeps_standard` has what comes of a near end with one of those). -/
structure Discreet (f : Family) (config : Config) (keep : KeepList) : Prop where
  closes : config.closeInherited = true
  spares {n : Int} {child : Nat} (h : (n, .near child) ∈ f.own) : ¬ Child.Names config keep n

/-- A supervisor has made a line and forked a child on it, which inherits what the parent has open
then, but for the near end. -/
structure Bears {σ : Type} (f : Family) (s s' : Scene Machine σ) (line : Line) (keep : KeepList)
    (c : Machine.Child) : Prop where
  opened : ∃ machine, f.machine.openLine = (.ok line, machine) ∧
    c.inherited = machine.descriptors.filter (· != line.near)
  /-- The hook before the fork has named what is on the list, and the child goes by it. -/
  kept : ∃ state, s.supervisor.server.beforeFork {} s.supervisor.state = (.ok keep, state) ∧
    c.program = Child.program s.supervisor.server s.supervisor.config keep state
  children_eq : s'.host.children = f.machine.children ++ [c]
  near_eq : c.near = some line.near
  far_eq : c.far = line.far
  /-- It holds the near ends among what its sweep leaves. -/
  holds_eq : c.holds =
    f.machine.nearEnds (Child.sweep s.supervisor.config keep c.far c.inherited)
  /-- The table that is kept of the child has the numbers that its sweep leaves. -/
  swept : ∃ t, (f.fork line s.supervisor.config keep s'.host).children = f.children ++ [t] ∧
    t.map Prod.fst = Child.sweep s.supervisor.config keep c.far c.inherited

/-- What a parent can do. -/
inductive Step (f : Family) : Family → Prop
  /-- A supervisor starts its server. -/
  | starts {σ : Type} {s s' : Scene Machine σ} {line : Line} {machine : Machine}
      {keep : KeepList} {state : σ} (hhost : s.host = f.machine)
      (hstart : Supervisor.start Machine.host s = (.ok (), s'))
      (hline : f.machine.openLine = (.ok line, machine))
      (hkeep : s.supervisor.server.beforeFork {} s.supervisor.state = (.ok keep, state))
      (hdiscreet : f.Discreet s.supervisor.config keep) :
      Step f (f.fork line s.supervisor.config keep s'.host)
  /-- A start is refused. -/
  | refuses {σ : Type} {s s' : Scene Machine σ} {e : SupervisorError} (hhost : s.host = f.machine)
      (hstart : Supervisor.start Machine.host s = (.error e, s')) :
      Step f { f with machine := s'.host }
  /-- The near end of a line is closed. -/
  | closes {line : Line} {pid : Pid} {c : Machine.Child}
      (h : f.machine.atLine? line = some (pid, c)) : Step f (f.closeLine line)
  /-- Another file is opened. -/
  | opens {n : Int} (h : n ∉ f.machine.descriptors) :
      Step f { f with
        machine := { f.machine with descriptors := f.machine.descriptors ++ [n] }
        own := f.own ++ [(n, .other)] }
  /-- Another file is closed. -/
  | drops {n : Int} (h : (n, .other) ∈ f.own) :
      Step f { f with machine := f.machine.close [n], own := f.own.less n }
  /-- Anything else happens: lines are read and written, children take up what they are told, exit
  and are reaped, time passes. -/
  | passes {machine : Machine} (h : f.machine.KeepsLines machine) : Step f { f with machine }

/-- The near ends that are open are those of the machine, each in the parent and nowhere else. -/
structure Sound (f : Family) : Prop where
  numbers_eq : f.own.map Prod.fst = f.machine.descriptors
  nodup : f.machine.descriptors.Nodup
  length_eq : f.children.length = f.machine.lines.length
  near_iff (n : Int) (child : Nat) :
    (n, .near child) ∈ f.own ↔ ∃ far, f.machine.lines[child]? = some (some n, far)
  far_mem {child : Nat} {t : FileTable} {near : Option Int} {far : Int}
    (ht : f.children[child]? = some t) (hline : f.machine.lines[child]? = some (near, far)) :
    (far, .far child) ∈ t
  apart {t : FileTable} (ht : t ∈ f.children) (n : Int) (child : Nat) : (n, .near child) ∉ t
  /-- What the machine has a child hold are the near ends in its table. -/
  holds_iff {child : Nat} {t : FileTable} {holds : List Nat} (ht : f.children[child]? = some t)
    (hholds : (f.machine.children.map Machine.Child.holds)[child]? = some holds) (other : Nat) :
    other ∈ holds ↔ ∃ n, (n, .near other) ∈ t

/-- The parent on a machine on which no child was forked. -/
def ofMachine (m : Machine) : Family where
  machine := m
  own := m.descriptors.map fun n => (n, .other)

/-- A parent that has come so far, having started without children. -/
def Reached (f : Family) : Prop :=
  ∃ m : Machine, m.children = [] ∧ m.descriptors.Nodup ∧ Relation.ReflTransGen Step (ofMachine m) f

theorem Reached.step (h : f.Reached) (hstep : f.Step f') : f'.Reached := by
  obtain ⟨m, hchildren, hnodup, hsteps⟩ := h
  exact ⟨m, hchildren, hnodup, hsteps.tail hstep⟩

theorem sound_ofMachine {m : Machine} (hchildren : m.children = [])
    (hnodup : m.descriptors.Nodup) : (ofMachine m).Sound where
  numbers_eq := by simp [ofMachine, Function.comp_def]
  nodup := hnodup
  length_eq := by simp [ofMachine, Machine.lines, hchildren]
  near_iff n child := by simp [ofMachine, Machine.lines, hchildren]
  far_mem ht _ := by cases ht
  apart ht _ _ := by cases ht
  holds_iff ht _ _ := by cases ht

/-- A number refers to one file. -/
theorem Sound.file_unique (h : f.Sound) {n : Int} {a b : File} (ha : (n, a) ∈ f.own)
    (hb : (n, b) ∈ f.own) : a = b := by
  have hnodup : (f.own.map Prod.fst).Nodup := by
    rw [h.numbers_eq]
    exact h.nodup
  exact congrArg Prod.snd (List.inj_on_of_nodup_map hnodup ha hb rfl)

/-- The near end of a line is open in the parent once. -/
theorem Sound.near_unique (h : f.Sound) {n m : Int} {child : Nat} (hn : (n, .near child) ∈ f.own)
    (hm : (m, .near child) ∈ f.own) : n = m := by
  obtain ⟨far, hline⟩ := (h.near_iff n child).1 hn
  obtain ⟨far', hline'⟩ := (h.near_iff m child).1 hm
  cases hline.symm.trans hline'
  rfl

/-- When a near end is closed those of the other lines stay open. -/
theorem Sound.near_mem_less (h : f.Sound) {n m : Int} {child closed : Nat}
    (hclosed : (m, .near closed) ∈ f.own) :
    (n, .near child) ∈ f.own.less m ↔ (n, .near child) ∈ f.own ∧ closed ≠ child := by
  rw [FileTable.mem_less]
  refine and_congr_right fun hn => not_congr ⟨fun hnumber => ?_, fun hchild => ?_⟩
  · rw [show n = m from hnumber] at hn
    cases h.file_unique hclosed hn
    rfl
  · subst hchild
    exact h.near_unique hn hclosed

/-- What the parent has open are the descriptors of its machine. -/
theorem Sound.mem_descriptors (h : f.Sound) {n : Int} {a : File} (hn : (n, a) ∈ f.own) :
    n ∈ f.machine.descriptors := by
  rw [← h.numbers_eq]
  exact List.mem_map_of_mem hn

/-- **The standard descriptors are no matter** while the parent has them open: no line has their
numbers. So it is enough that the settings and the hook before the fork name no near end. -/
theorem Sound.discreet (h : f.Sound) {config : Config} {keep : KeepList}
    (hcloses : config.closeInherited = true)
    (hstandard : ∀ n ∈ ([0, 1, 2] : List Int), (n, .other) ∈ f.own)
    (hspares : ∀ n child, (n, .near child) ∈ f.own →
      n ∉ config.keepDescriptors ∧ keep.contains n = false) : f.Discreet config keep where
  closes := hcloses
  spares {n child} hmem hnamed := by
    obtain ⟨hconfig, hkeep⟩ := hspares n child hmem
    rcases hnamed with hnumber | hnamed | hnamed
    · cases h.file_unique hmem (hstandard n hnumber)
    · exact hconfig hnamed
    · cases hnamed.symm.trans hkeep

/-- There is a child for each line. -/
theorem Sound.lt_length (h : f.Sound) {child : Nat} {l : Option Int × Int}
    (hline : f.machine.lines[child]? = some l) : child < f.children.length := by
  rw [h.length_eq]
  exact (List.getElem?_eq_some_iff.1 hline).1

/-! ## What a step keeps -/

theorem Sound.opens (h : f.Sound) {n : Int} (hn : n ∉ f.machine.descriptors) :
    Sound { f with
      machine := { f.machine with descriptors := f.machine.descriptors ++ [n] }
      own := f.own ++ [(n, .other)] } where
  numbers_eq := by
    rw [List.map_append, h.numbers_eq]
    rfl
  nodup := List.nodup_append.2 ⟨h.nodup, List.nodup_singleton n, fun k hk l hl => by
    rw [List.mem_singleton.1 hl]
    exact fun heq => hn (heq ▸ hk)⟩
  length_eq := h.length_eq
  near_iff k child := by
    rw [List.mem_append, h.near_iff]
    exact or_iff_left (by simp)
  far_mem := h.far_mem
  apart := h.apart
  holds_iff := h.holds_iff

theorem Sound.drops (h : f.Sound) {n : Int} (hn : (n, .other) ∈ f.own) :
    Sound { f with machine := f.machine.close [n], own := f.own.less n } where
  numbers_eq := by rw [FileTable.map_less, h.numbers_eq, Machine.descriptors_close]
  nodup := h.nodup.filter _
  length_eq := h.length_eq
  near_iff k child := by
    rw [FileTable.mem_less, h.near_iff]
    refine and_iff_left_of_imp fun hline hk => ?_
    -- the number would refer to two files
    subst hk
    cases h.file_unique hn ((h.near_iff _ child).2 hline)
  far_mem := h.far_mem
  apart := h.apart
  holds_iff := h.holds_iff

theorem Sound.passes (h : f.Sound) {machine : Machine} (hkept : f.machine.KeepsLines machine) :
    Sound { f with machine } := by
  obtain ⟨hlines, hholds, hdescriptors⟩ := hkept
  refine ⟨h.numbers_eq.trans hdescriptors.symm, ?_, ?_, fun n child => ?_,
    fun ht hline => h.far_mem ht (hlines ▸ hline), h.apart,
    fun ht hheld => h.holds_iff ht (hholds ▸ hheld)⟩
  · show machine.descriptors.Nodup
    rw [hdescriptors]
    exact h.nodup
  · show _ = machine.lines.length
    rw [hlines]
    exact h.length_eq
  · show _ ↔ ∃ far, machine.lines[child]? = _
    rw [hlines]
    exact h.near_iff n child

theorem Sound.closes (h : f.Sound) {line : Line} {pid : Pid} {c : Machine.Child}
    (hat : f.machine.atLine? line = some (pid, c)) : (f.closeLine line).Sound := by
  obtain ⟨i, rfl, hline⟩ := Machine.lines_of_atLine? hat
  obtain ⟨hlines, hholds, hdescriptors⟩ := Machine.closeLine_eq hat
  rw [Machine.index_succ] at hlines
  have hmem : (line.near, .near i) ∈ f.own := (h.near_iff _ i).2 ⟨_, hline⟩
  have hlt := (List.getElem?_eq_some_iff.1 hline).1
  refine ⟨?_, ?_, ?_, fun n child => ?_, fun {child t near far} ht hline' => ?_, h.apart,
    fun ht hheld => h.holds_iff ht (hholds ▸ hheld)⟩
  · show (f.own.less line.near).map Prod.fst = (f.machine.closeLine line).descriptors
    rw [FileTable.map_less, h.numbers_eq, hdescriptors]
  · show (f.machine.closeLine line).descriptors.Nodup
    rw [hdescriptors]
    exact h.nodup.filter _
  · show _ = (f.machine.closeLine line).lines.length
    rw [hlines, List.length_set]
    exact h.length_eq
  · show (n, .near child) ∈ f.own.less line.near ↔
      ∃ far, (f.machine.closeLine line).lines[child]? = some (some n, far)
    rw [hlines, h.near_mem_less hmem, h.near_iff]
    by_cases heq : i = child
    · subst heq
      rw [List.getElem?_set_self hlt]
      constructor
      · exact fun hn => absurd rfl hn.2
      · rintro ⟨far, hn⟩
        cases hn
    · rw [List.getElem?_set_ne heq]
      exact and_iff_left heq
  · rw [show (f.closeLine line).machine.lines = _ from hlines] at hline'
    by_cases heq : i = child
    · subst heq
      rw [List.getElem?_set_self hlt] at hline'
      cases hline'
      exact h.far_mem ht hline
    · rw [List.getElem?_set_ne heq] at hline'
      exact h.far_mem ht hline'

theorem mem_withLine {line : Line} {e : Int × File} :
    e ∈ f.withLine line ↔ e ∈ f.own ∨ e = (line.near, .near f.children.length) ∨
      e = (line.far, .far f.children.length) := by
  rw [withLine, List.mem_append, List.mem_cons, List.mem_singleton]

/-- A child inherits its own end of its line. -/
theorem far_mem_inherited {line : Line} (hne : line.near ≠ line.far) :
    (line.far, .far f.children.length) ∈ f.inherited line := by
  rw [inherited, FileTable.mem_less, mem_withLine]
  exact ⟨.inr (.inr rfl), Ne.symm hne⟩

/-- **A child that sweeps, and that no near end is named to, inherits none.** -/
theorem Sound.inherits_no_near (h : f.Sound) {line : Line} {config : Config} {keep : KeepList}
    (hdiscreet : f.Discreet config keep) (hfar : line.far ∉ f.machine.descriptors) (n : Int)
    (child : Nat) :
    (n, .near child) ∉ (f.inherited line).only
      (Child.sweep config keep line.far ((f.inherited line).map Prod.fst)) := by
  intro hmem
  rw [FileTable.mem_only, Child.mem_sweep hdiscreet.closes, inherited, FileTable.mem_less,
    mem_withLine] at hmem
  obtain ⟨⟨hown | hnew | hnew, hne⟩, -, hkept⟩ := hmem
  · rcases hkept with hsocket | hnamed
    · exact hfar (hsocket ▸ h.mem_descriptors hown)
    · exact hdiscreet.spares hown hnamed
  · -- the near end of its own line is closed
    exact hne (congrArg Prod.fst hnew)
  · cases hnew

/-- The near ends in the parent of a child that was forked are those from before and that of its
line. -/
theorem Sound.near_mem_fork (h : f.Sound) {line : Line}
    (hfar : line.far ∉ f.machine.descriptors) (hne : line.near ≠ line.far) {n : Int}
    {child : Nat} :
    (n, .near child) ∈ (f.withLine line).less line.far ↔
      (n, .near child) ∈ f.own ∨ child = f.children.length ∧ n = line.near := by
  rw [FileTable.mem_less, mem_withLine]
  constructor
  · rintro ⟨hown | hnew | hnew, -⟩
    · exact .inl hown
    · cases hnew
      exact .inr ⟨rfl, rfl⟩
    · cases hnew
  · rintro (hown | ⟨rfl, rfl⟩)
    · exact ⟨.inl hown, fun heq => hfar (heq ▸ h.mem_descriptors hown)⟩
    · exact ⟨.inr (.inl rfl), hne⟩

/-- A line that was made adds two numbers that no other descriptor has. -/
theorem Sound.nodup_withLine (h : f.Sound) {line : Line}
    (hnear : line.near ∉ f.machine.descriptors) (hfar : line.far ∉ f.machine.descriptors)
    (hne : line.near ≠ line.far) :
    (f.machine.descriptors ++ [line.near, line.far]).Nodup := by
  have hpair : [line.near, line.far].Nodup := by simp [hne]
  refine List.nodup_append.2 ⟨h.nodup, hpair, fun k hk l hl heq => ?_⟩
  subst heq
  rcases List.mem_cons.1 hl with rfl | hl
  · exact hnear hk
  · rw [List.mem_singleton.1 hl] at hk
    exact hfar hk

/-- The near ends that a child holds when it is forked are those in its table. -/
theorem Sound.mem_nearEnds (h : f.Sound) {line : Line} (hnear : line.near ∉ f.machine.descriptors)
    {kept : List Int} {other : Nat} :
    other ∈ f.machine.nearEnds kept ↔ ∃ n, (n, .near other) ∈ (f.inherited line).only kept := by
  simp only [Machine.mem_nearEnds, ← h.near_iff, FileTable.mem_only, inherited, FileTable.mem_less,
    mem_withLine]
  constructor
  · rintro ⟨n, hkept, hown⟩
    exact ⟨n, ⟨.inl hown, fun heq => hnear (heq ▸ h.mem_descriptors hown)⟩, hkept⟩
  · rintro ⟨n, ⟨hown | hnew | hnew, hne⟩, hkept⟩
    · exact ⟨n, hkept, hown⟩
    · -- the near end of its own line is closed
      exact absurd (congrArg Prod.fst hnew) hne
    · cases hnew

/-- The new child sweeps, and keeps its end of the line. -/
theorem far_mem_swept {line : Line} {config : Config} {keep : KeepList}
    (hdiscreet : f.Discreet config keep) (hne : line.near ≠ line.far) :
    (line.far, .far f.children.length) ∈ (f.inherited line).only
      (Child.sweep config keep line.far ((f.inherited line).map Prod.fst)) := by
  have hinherited := far_mem_inherited (f := f) hne
  rw [FileTable.mem_only, Child.mem_sweep hdiscreet.closes]
  exact ⟨hinherited, List.mem_map_of_mem hinherited, .inl rfl⟩

/-- Of two lists of a length that grow by one, each entry and the one beside it are old or new. -/
theorem getElem?_concat_both {α β : Type} {as : List α} {bs : List β} {a a' : α} {b b' : β}
    {i : Nat} (hlength : bs.length = as.length) (ha : (as ++ [a'])[i]? = some a)
    (hb : (bs ++ [b'])[i]? = some b) :
    as[i]? = some a ∧ bs[i]? = some b ∨ i = as.length ∧ a = a' ∧ b = b' := by
  obtain hlt | heq : i < as.length ∨ i = as.length := by
    have hle := (List.getElem?_eq_some_iff.1 ha).1
    rw [List.length_append, List.length_singleton] at hle
    omega
  · rw [List.getElem?_append_left hlt] at ha
    rw [List.getElem?_append_left (hlength ▸ hlt)] at hb
    exact .inl ⟨ha, hb⟩
  · subst heq
    rw [List.getElem?_concat_length] at ha
    rw [← hlength, List.getElem?_concat_length] at hb
    exact .inr ⟨rfl, (Option.some.inj ha).symm, (Option.some.inj hb).symm⟩

/-- **A discreet child spoils nothing** when it is forked. -/
theorem Sound.forks (h : f.Sound) {line : Line} {machine : Machine} {config : Config}
    {keep : KeepList} (hdiscreet : f.Discreet config keep)
    (hnear : line.near ∉ f.machine.descriptors) (hfar : line.far ∉ f.machine.descriptors)
    (hne : line.near ≠ line.far)
    (hlines : machine.lines = f.machine.lines ++ [(some line.near, line.far)])
    (hholds : machine.children.map Machine.Child.holds =
      f.machine.children.map Machine.Child.holds ++ [f.machine.nearEnds
        (Child.sweep config keep line.far ((f.inherited line).map Prod.fst))])
    (hdescriptors : machine.descriptors =
      (f.machine.descriptors ++ [line.near, line.far]).filter (· != line.far)) :
    (f.fork line config keep machine).Sound := by
  have hlength : f.machine.lines.length = f.children.length := h.length_eq.symm
  constructor
  case numbers_eq =>
    show ((f.withLine line).less line.far).map Prod.fst = machine.descriptors
    rw [FileTable.map_less, withLine, List.map_append, h.numbers_eq, hdescriptors]
    rfl
  case nodup =>
    show machine.descriptors.Nodup
    rw [hdescriptors]
    exact (h.nodup_withLine hnear hfar hne).filter _
  case length_eq =>
    show (f.children ++ [_]).length = machine.lines.length
    rw [hlines, List.length_append, List.length_append, hlength]
    rfl
  case near_iff =>
    intro n child
    show (n, .near child) ∈ (f.withLine line).less line.far ↔
      ∃ far, machine.lines[child]? = some (some n, far)
    rw [h.near_mem_fork hfar hne, h.near_iff, hlines]
    constructor
    · rintro (⟨far, hl⟩ | ⟨rfl, rfl⟩)
      · exact ⟨far, by rw [List.getElem?_append_left (List.getElem?_eq_some_iff.1 hl).1, hl]⟩
      · exact ⟨line.far, by rw [← hlength, List.getElem?_concat_length]⟩
    · rintro ⟨far, hl⟩
      obtain ⟨hold, -⟩ | ⟨rfl, heq, -⟩ := getElem?_concat_both rfl hl hl
      · exact .inl ⟨far, hold⟩
      · cases heq
        exact .inr ⟨hlength, rfl⟩
  case far_mem =>
    intro child t near far ht hline
    rw [show (f.fork line config keep machine).machine = machine from rfl, hlines] at hline
    obtain ⟨hold, hl⟩ | ⟨rfl, rfl, heq⟩ := getElem?_concat_both hlength ht hline
    · exact h.far_mem hold hl
    · cases heq
      exact far_mem_swept hdiscreet hne
  case apart =>
    intro t ht n child
    obtain hold | hnew := List.mem_append.1 ht
    · exact h.apart hold n child
    · rw [List.mem_singleton.1 hnew]
      exact h.inherits_no_near hdiscreet hfar n child
  case holds_iff =>
    intro child t holds ht hheld other
    rw [show (f.fork line config keep machine).machine = machine from rfl, hholds] at hheld
    have hlength' : (f.machine.children.map Machine.Child.holds).length = f.children.length := by
      rw [← hlength, Machine.lines, List.length_map, List.length_map]
    obtain ⟨hold, hheld⟩ | ⟨rfl, rfl, rfl⟩ := getElem?_concat_both hlength' ht hheld
    · exact h.holds_iff hold hheld other
    · exact h.mem_nearEnds hnear

/-- **A start that is not refused** bears a child, and spoils nothing if the child is discreet. -/
theorem Sound.starts (h : f.Sound) {σ : Type} {s s' : Scene Machine σ} (hhost : s.host = f.machine)
    (hstart : Supervisor.start Machine.host s = (.ok (), s')) :
    ∃ line keep c, f.Bears s s' line keep c ∧ (f.Discreet s.supervisor.config keep →
      (f.fork line s.supervisor.config keep s'.host).Sound) := by
  obtain ⟨line, machine, keep, state, hopen, hkeep, hforked⟩ := Supervisor.host_of_started hstart
  rw [hhost] at hopen
  obtain ⟨c, hchildren, hprogram, hinherited, ⟨hnear', hfar'⟩, hholds, hlines, hdescriptors⟩ :=
    Machine.fork_eq machine line
      (Child.program s.supervisor.server s.supervisor.config keep state)
  rw [← hforked] at hchildren hlines hdescriptors
  have hopened : ∃ machine, f.machine.openLine = (.ok line, machine) ∧
      c.inherited = machine.descriptors.filter (· != line.near) := ⟨machine, hopen, hinherited⟩
  obtain ⟨hnear, hfar, hne, rfl⟩ := Machine.openLine_ok hopen
  have hnumbers : c.inherited = (f.inherited line).map Prod.fst := by
    rw [hinherited, inherited, FileTable.map_less, withLine, List.map_append, h.numbers_eq]
    rfl
  refine ⟨line, keep, c,
    ⟨hopened, ⟨state, hkeep, hprogram⟩, hchildren, hnear', hfar', hholds, _, rfl, ?_⟩,
    fun hdiscreet => h.forks hdiscreet hnear hfar hne hlines ?_ hdescriptors⟩
  · rw [FileTable.map_only_sweep, hnumbers, hfar']
  · rw [hchildren, List.map_append, ← hnumbers, ← hfar']
    exact congrArg (fun holds => _ ++ [holds]) hholds

/-- **No step spoils anything.** -/
theorem Sound.step (h : f.Sound) (hstep : f.Step f') : f'.Sound := by
  cases hstep with
  | starts hhost hstart hline hkeep hdiscreet =>
    obtain ⟨line, keep, c, hbears, hsound⟩ := h.starts hhost hstart
    obtain ⟨machine, hline', -⟩ := hbears.opened
    obtain ⟨state, hkeep', -⟩ := hbears.kept
    cases hline.symm.trans hline'
    cases hkeep.symm.trans hkeep'
    exact hsound hdiscreet
  | refuses hhost hstart =>
    rw [Supervisor.host_of_refused hstart, hhost]
    exact h
  | closes hat => exact h.closes hat
  | opens hn => exact h.opens hn
  | drops hn => exact h.drops hn
  | passes hkept => exact h.passes hkept

theorem Reached.sound (h : f.Reached) : f.Sound := by
  obtain ⟨m, hchildren, hnodup, hsteps⟩ := h
  induction hsteps with
  | refl => exact sound_ofMachine hchildren hnodup
  | tail _ hstep ih => exact ih.step hstep

end Family

/-! ## The end of the stream -/

/-- A reading that tells a channel that the stream has ended. -/
def Reading.Ends (r : Reading) : Prop :=
  ∀ c : Channel, c.absorb r = (none, { c with ended := true })

namespace Process

variable {p q : Process} {n : Nat} {notes : List Note}

end Process

/-! ## The whole family -/

namespace Family

open Child Supervisor

/-- A server whose hook before the fork has a number kept twice, and one that no descriptor has. -/
def keeper : Server Unit where
  name _ := "keeper"
  beforeFork keep state := (.ok (keep.keepAll [7, 7, -1]), state)

/-- A `keeper` that is to be started on a machine. -/
def onMachine (m : Machine) : Scene Machine Unit where
  supervisor := .ofServer keeper () {} Instant.origin
  host := m

/-- **A near end with a standard number is kept by every child.** In a parent that has closed a
standard descriptor a line may get its number, and then a child that is forked later holds the near
end, whether it sweeps or not and whatever is named. -/
theorem Sound.keeps_standard {f : Family} (h : f.Sound) {σ : Type} {s s' : Scene Machine σ}
    {line : Line} {keep : KeepList} {c : Machine.Child} (hbears : f.Bears s s' line keep c)
    {n : Int} {child : Nat} (hmem : (n, .near child) ∈ f.own)
    (hstandard : n ∈ ([0, 1, 2] : List Int)) : child ∈ c.holds := by
  obtain ⟨machine, hopen, hinherited⟩ := hbears.opened
  obtain ⟨hnear, -, -, rfl⟩ := Machine.openLine_ok hopen
  have hn := h.mem_descriptors hmem
  have hopened : n ∈ c.inherited := by
    rw [hinherited, List.mem_filter, bne_iff_ne]
    exact ⟨List.mem_append_left _ hn, fun heq => hnear (heq ▸ hn)⟩
  rw [hbears.holds_eq, Machine.mem_nearEnds]
  refine ⟨n, ?_, (h.near_iff n child).1 hmem⟩
  cases hclose : s.supervisor.config.closeInherited with
  | true => exact (mem_sweep hclose).2 ⟨hopened, .inr (.inl hstandard)⟩
  | false => rwa [sweep_of_leave hclose]

/-- **The child at the far end of such a line is told nothing** when the parent closes the line, as
long as the later child is there. -/
theorem Sound.untold_of_standard {f : Family} (h : f.Sound) {σ : Type} {s s' : Scene Machine σ}
    {line closed : Line} {keep : KeepList} {c c' : Machine.Child} {pid : Pid}
    (hbears : f.Bears s s' line keep c) (hthere : c.view.exited = false)
    (hat : f.machine.atLine? closed = some (pid, c'))
    (hstandard : closed.near ∈ ([0, 1, 2] : List Int)) :
    (s'.host.closeLine closed).child? pid = some { c' with near := none, parted := false } := by
  obtain ⟨i, rfl, hline⟩ := Machine.lines_of_atLine? hat
  have hholds := h.keeps_standard hbears ((h.near_iff _ i).2 ⟨_, hline⟩) hstandard
  have hlast : s'.host.children[f.machine.children.length]? = some c := by
    rw [hbears.children_eq, List.getElem?_concat_length]
  have hne : i ≠ f.machine.children.length := by
    have hlt := (List.getElem?_eq_some_iff.1 hline).1
    rw [Machine.lines, List.length_map] at hlt
    exact Nat.ne_of_lt hlt
  have hnear : c.near ≠ none := by
    rw [hbears.near_eq]
    exact Option.some_ne_none _
  exact Machine.closeLine_held (Machine.atLine?_of_append hat hbears.children_eq) hlast hne hthere
    hholds hnear

/-- Two `keeper`s in a parent with some descriptors, and what each is told when the line to the
first is closed. -/
def toldOfClosing (descriptors : List Int) (line : Line) : List (List Stimulus) :=
  let first := (start Machine.host (onMachine { descriptors })).2.host
  let both := (start Machine.host (onMachine first)).2.host
  (both.closeLine line).children.map Machine.Child.told

example : toldOfClosing [0, 1, 2] ⟨3, 4⟩ = [[.hangUp false], []] := by decide +kernel

/-- Without a standard input the first line gets its number. -/
example : toldOfClosing [1, 2] ⟨0, 3⟩ = [[], []] := by decide +kernel

end Family

end Overseer
