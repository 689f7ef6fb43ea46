import Overseer.Machine.Basic
import Mathlib.Data.List.Nodup
import Mathlib.Data.List.Perm.Subperm

/-!
# The lines of a machine

A machine gives a line two numbers that are not in use (`Machine.openLine_ok`). The near end stays
open in the parent until the line is closed (`Machine.closeLine_eq`); the far end goes to the child
that is forked (`Machine.fork_eq`). Whatever else is done with a machine keeps its lines as they are
(`Machine.KeepsLines`).

When a line is closed the child at the far end is told, if no other one has kept the near end
(`Machine.closeLine_told`). As long as one that is there has kept it, it is not
(`Machine.closeLine_held`).
-/

namespace Overseer

namespace Machine

/-! ## Numbers that are not in use -/

/-- Among one number more than are in use there is one that is not. -/
theorem lowestFree_not_mem (used : List Int) : lowestFree used ∉ used := by
  unfold lowestFree
  cases hfind : ((List.range (used.length + 1)).map Int.ofNat).find? fun n => !used.contains n with
  | some n =>
    have hfree := List.find?_some hfind
    rwa [Bool.not_eq_true', ← Bool.not_eq_true, List.contains_iff_mem] at hfree
  | none =>
    -- otherwise so many numbers would have no room in the list
    rw [List.find?_eq_none] at hfind
    have hused : (List.range (used.length + 1)).map Int.ofNat ⊆ used := by
      intro n hn
      have hmem := hfind n hn
      rwa [Bool.not_eq_true', Bool.not_eq_false, List.contains_iff_mem] at hmem
    have hnodup : ((List.range (used.length + 1)).map Int.ofNat).Nodup :=
      List.nodup_range.map fun _ _ => Int.ofNat.inj
    have hle := (hnodup.subperm hused).length_le
    rw [List.length_map, List.length_range] at hle
    omega

/-- A line gets two numbers that are not in use. -/
theorem openLine_ok {m m' : Machine} {line : Line} (h : m.openLine = (.ok line, m')) :
    line.near ∉ m.descriptors ∧ line.far ∉ m.descriptors ∧ line.near ≠ line.far ∧
      m' = { m with descriptors := m.descriptors ++ [line.near, line.far] } := by
  unfold openLine at h
  split at h
  · cases h
  · cases h
    have hfar := lowestFree_not_mem (lowestFree m.descriptors :: m.descriptors)
    rw [List.mem_cons, not_or] at hfar
    exact ⟨lowestFree_not_mem _, hfar.2, Ne.symm hfar.1, rfl⟩

theorem openLine_error {m m' : Machine} {e : IoError} (h : m.openLine = (.error e, m')) :
    m' = m := by
  unfold openLine at h
  split at h <;> cases h
  rfl

/-- A line that is given up at once leaves nothing behind. -/
theorem close_line {m : Machine} {line : Line} (hnear : line.near ∉ m.descriptors)
    (hfar : line.far ∉ m.descriptors) :
    { m with descriptors := m.descriptors ++ [line.near, line.far] }.close [line.near, line.far] =
      m := by
  have hkept : m.descriptors.filter (fun n => !([line.near, line.far].contains n)) =
      m.descriptors := by
    refine List.filter_eq_self.2 fun n hn => ?_
    have hne : n ≠ line.near ∧ n ≠ line.far :=
      ⟨fun heq => hnear (heq ▸ hn), fun heq => hfar (heq ▸ hn)⟩
    simp [hne]
  rw [close, List.filter_append, hkept]
  simp

/-! ## Children and their ends of the lines -/

/-- The numbers of the ends of the lines, for each child: the near one while that is open, and the
far one. -/
def lines (m : Machine) : List (Option Int × Int) := m.children.map fun c => (c.near, c.far)

variable {m : Machine} {pid : Pid} {c : Child} {line : Line}

theorem lines_getElem? (i : Nat) : m.lines[i]? = m.children[i]?.map fun c => (c.near, c.far) :=
  List.getElem?_map

theorem child?_eq_some (h : m.child? pid = some c) :
    0 < pid ∧ m.children[index pid]? = some c := by
  unfold child? at h
  split at h
  · next hpos => exact ⟨hpos, h⟩
  · cases h

theorem children_update (h : m.child? pid = some c) (f : Child → Child) :
    (m.update pid f).children = m.children.set (index pid) (f c) := by
  rw [update, h]
  rfl

theorem lines_update (h : m.child? pid = some c) (f : Child → Child) :
    (m.update pid f).lines = m.lines.set (index pid) ((f c).near, (f c).far) := by
  rw [lines, children_update h]
  exact List.map_set

/-- What is the same of a child that is put back is the same of all. -/
theorem map_set_of_same {β : Type} {g : Child → β} {c' : Child} (h : m.child? pid = some c)
    (hsame : g c' = g c) : (m.children.set (index pid) c').map g = m.children.map g := by
  obtain ⟨-, hget⟩ := child?_eq_some h
  refine List.ext_getElem? fun i => ?_
  rw [List.getElem?_map, List.getElem?_map]
  by_cases hi : index pid = i
  · subst hi
    rw [List.getElem?_set_self (List.getElem?_eq_some_iff.1 hget).1, hget, Option.map_some,
      Option.map_some, hsame]
  · rw [List.getElem?_set_ne hi]

/-- A change of a child that leaves something alone leaves that alone of all children. -/
theorem map_update_of_same {β : Type} {g : Child → β} {f : Child → Child}
    (h : ∀ c, g (f c) = g c) : (m.update pid f).children.map g = m.children.map g := by
  cases hc : m.child? pid with
  | none => rw [update, hc]
  | some c => rw [children_update hc, map_set_of_same hc (h c)]

namespace Child

/-- A child keeps its ends of lines: those of its own, and the near ends of others. -/
structure SameEnds (c c' : Child) : Prop where
  line_eq : (c'.near, c'.far) = (c.near, c.far)
  holds_eq : c'.holds = c.holds

theorem sameEnds_tell (c : Child) (single : Bool) (stimulus : Stimulus) :
    c.SameEnds (c.tell single stimulus) := by
  unfold tell
  split
  · exact ⟨rfl, rfl⟩
  · split <;> exact ⟨rfl, rfl⟩

theorem sameEnds_part (c : Child) (single : Bool) : c.SameEnds (c.part single) := by
  obtain ⟨hline, hholds⟩ := c.sameEnds_tell single (.hangUp (!c.inbox.queue.isEmpty))
  exact ⟨hline, hholds⟩

/-- A child that is gone stays gone. -/
theorem exited_part {c : Child} (single : Bool) (h : c.view.exited = true) :
    (c.part single).view.exited = true := by
  rw [part, tell, if_pos h]
  exact h

end Child

theorem descriptors_update (pid : Pid) (f : Child → Child) :
    (m.update pid f).descriptors = m.descriptors := by
  unfold update
  split <;> rfl

theorem single_update (pid : Pid) (f : Child → Child) : (m.update pid f).single = m.single := by
  unfold update
  split <;> rfl

/-- A machine has the lines and the descriptors that it had, and its children have kept the same
near ends. -/
structure KeepsLines (m m' : Machine) : Prop where
  lines_eq : m'.lines = m.lines
  holds_eq : m'.children.map Child.holds = m.children.map Child.holds
  descriptors_eq : m'.descriptors = m.descriptors

theorem KeepsLines.refl (m : Machine) : m.KeepsLines m := ⟨rfl, rfl, rfl⟩

theorem KeepsLines.trans {m m' m'' : Machine} (h : m.KeepsLines m') (h' : m'.KeepsLines m'') :
    m.KeepsLines m'' :=
  ⟨h'.lines_eq.trans h.lines_eq, h'.holds_eq.trans h.holds_eq,
    h'.descriptors_eq.trans h.descriptors_eq⟩

theorem KeepsLines.foldl {α : Type} {f : Machine → α → Machine}
    (h : ∀ (m : Machine) (a : α), m.KeepsLines (f m a)) (as : List α) (m : Machine) :
    m.KeepsLines (as.foldl f m) := by
  induction as generalizing m with
  | nil => exact .refl m
  | cons a as ih => exact (h m a).trans (ih _)

theorem keepsLines_update (m : Machine) (pid : Pid) {f : Child → Child}
    (h : ∀ c : Child, c.SameEnds (f c)) : m.KeepsLines (m.update pid f) :=
  ⟨map_update_of_same fun c => (h c).line_eq, map_update_of_same fun c => (h c).holds_eq,
    descriptors_update pid f⟩

theorem keepsLines_part (m : Machine) (i : Nat) : m.KeepsLines (m.part i) := by
  unfold part
  split
  · exact .refl m
  · split
    · exact keepsLines_update m _ fun c => c.sameEnds_part m.single
    · exact .refl m

theorem keepsLines_release (m : Machine) : m.KeepsLines m.release :=
  .foldl (fun m _ => .foldl keepsLines_part _ m) _ m

theorem descriptors_close (m : Machine) (n : Int) :
    (m.close [n]).descriptors = m.descriptors.filter (· != n) := by
  refine List.filter_congr fun k _ => ?_
  rw [List.contains_cons, List.contains_nil, Bool.or_false]
  rfl

/-- The child at the other end of a line is the child whose near end has its number. -/
theorem atLine?_eq_some (h : m.atLine? line = some (pid, c)) :
    ∃ i : Nat, pid = (i : Int) + 1 ∧ m.children[i]? = some c ∧ c.near = some line.near := by
  unfold atLine? at h
  have hnear := List.find?_some h
  obtain ⟨i, hi⟩ := List.mem_iff_getElem?.1 (List.mem_of_find?_eq_some h)
  obtain ⟨hpid, hchild⟩ := List.getElem?_zip_eq_some.1 hi
  refine ⟨i, ?_, hchild, by simpa using hnear⟩
  rw [pids, List.getElem?_map, Option.map_eq_some_iff] at hpid
  obtain ⟨j, hj, rfl⟩ := hpid
  obtain ⟨hlt, rfl⟩ := List.getElem?_eq_some_iff.1 hj
  rw [List.getElem_range]
  rfl

theorem lines_of_atLine? (h : m.atLine? line = some (pid, c)) :
    ∃ i : Nat, pid = (i : Int) + 1 ∧ m.lines[i]? = some (some line.near, c.far) := by
  obtain ⟨i, hpid, hchild, hnear⟩ := atLine?_eq_some h
  refine ⟨i, hpid, ?_⟩
  rw [lines_getElem?, hchild, ← hnear]
  rfl

/-- Children are numbered from 1 on. -/
theorem index_succ (i : Nat) : index ((i : Int) + 1) = i := by
  rw [index]
  omega

theorem child?_succ (m : Machine) (i : Nat) : m.child? ((i : Int) + 1) = m.children[i]? := by
  have hpos : (0 : Int) < (i : Int) + 1 := by omega
  rw [child?, if_pos hpos, index_succ]

theorem getElem?_of_atLine? {i : Nat} (h : m.atLine? line = some ((i : Int) + 1, c)) :
    m.children[i]? = some c := by
  obtain ⟨j, hpid, hchild, -⟩ := atLine?_eq_some h
  have hij : i = j := by
    rw [← index_succ i, hpid, index_succ]
  rwa [hij]

/-- A child that comes last takes no line from those before it. -/
theorem atLine?_of_append {m' : Machine} {last : Child} (h : m.atLine? line = some (pid, c))
    (hchildren : m'.children = m.children ++ [last]) : m'.atLine? line = some (pid, c) := by
  have hpids : m'.pids = m.pids ++ [(m.children.length : Int) + 1] := by
    rw [pids, hchildren, List.length_append, List.length_singleton, List.range_succ,
      List.map_append]
    rfl
  have hlength : m.pids.length = m.children.length := by
    rw [pids, List.length_map, List.length_range]
  unfold atLine? at h ⊢
  rw [hpids, hchildren, List.zip_append hlength, List.find?_append, h, Option.some_or]

/-- What the children go through when some of them are told that their peer is gone: each of them at
most once, and only one whose line is closed. -/
structure Parts (m m' : Machine) : Prop where
  single_eq : m'.single = m.single
  child (i : Nat) : m'.children[i]? = m.children[i]? ∨ ∃ c, m.children[i]? = some c ∧
    c.near = none ∧ c.parted = false ∧ m'.children[i]? = some (c.part m.single)

theorem Parts.refl (m : Machine) : m.Parts m := ⟨rfl, fun _ => .inl rfl⟩

/-- A child that was told is not told again. -/
theorem Parts.stays {m m' : Machine} {i : Nat} (h : m.Parts m') (hc : m.children[i]? = some c)
    (hstays : c.near ≠ none ∨ c.parted = true) : m'.children[i]? = some c := by
  obtain hsame | ⟨c', hc', hnear, hparted, -⟩ := h.child i
  · exact hsame.trans hc
  · cases hc.symm.trans hc'
    exact hstays.elim (absurd hnear) fun htold => Bool.noConfusion (hparted.symm.trans htold)

theorem Parts.trans {m m' m'' : Machine} (h : m.Parts m') (h' : m'.Parts m'') : m.Parts m'' := by
  refine ⟨h'.single_eq.trans h.single_eq, fun i => ?_⟩
  obtain hsame | ⟨c, hc, hnear, hparted, htold⟩ := h.child i
  · have hthen := h'.child i
    rwa [hsame, h.single_eq] at hthen
  · exact .inr ⟨c, hc, hnear, hparted, h'.stays htold (.inr rfl)⟩

theorem Parts.foldl {α : Type} {f : Machine → α → Machine}
    (h : ∀ (m : Machine) (a : α), m.Parts (f m a)) (as : List α) (m : Machine) :
    m.Parts (as.foldl f m) := by
  induction as generalizing m with
  | nil => exact .refl m
  | cons a as ih => exact (h m a).trans (ih _)

/-- One child is told if it is to be. -/
theorem part_of_deserted {i : Nat} (hc : m.children[i]? = some c) (hnear : c.near = none)
    (hparted : c.parted = false) (hheld : m.held i = false) :
    (m.part i).children = m.children.set i (c.part m.single) ∧ (m.part i).single = m.single := by
  have hchild : m.child? ((i : Int) + 1) = some c := by rw [child?_succ, hc]
  have hpart : m.part i = m.update ((i : Int) + 1) (Child.part m.single) := by
    simp [part, hc, hnear, hparted, hheld]
  rw [hpart, children_update hchild, index_succ, single_update]
  exact ⟨rfl, rfl⟩

theorem part_of_held {i : Nat} (hheld : m.held i = true) : m.part i = m := by
  unfold part
  split
  · rfl
  · rw [hheld, Bool.not_true, Bool.and_false, if_neg Bool.false_ne_true]

/-- The other children are left alone. -/
theorem part_ne {i k : Nat} (h : k ≠ i) : (m.part k).children[i]? = m.children[i]? := by
  unfold part
  split
  · rfl
  · next c hc =>
    split
    · have hchild : m.child? ((k : Int) + 1) = some c := by rw [child?_succ, hc]
      rw [children_update hchild, index_succ, List.getElem?_set_ne h]
    · rfl

theorem parts_part (m : Machine) (i : Nat) : m.Parts (m.part i) := by
  cases hc : m.children[i]? with
  | none => rw [part, hc]; exact .refl m
  | some c =>
    by_cases hdeserted : c.near = none ∧ c.parted = false ∧ m.held i = false
    · obtain ⟨hnear, hparted, hheld⟩ := hdeserted
      obtain ⟨hchildren, hsingle⟩ := part_of_deserted hc hnear hparted hheld
      refine ⟨hsingle, fun j => ?_⟩
      rw [hchildren]
      by_cases hij : i = j
      · subst hij
        exact .inr ⟨c, hc, hnear, hparted,
          List.getElem?_set_self (List.getElem?_eq_some_iff.1 hc).1⟩
      · exact .inl (List.getElem?_set_ne hij)
    · have hsame : m.part i = m := by
        rw [part, hc]
        refine if_neg fun hall => hdeserted ?_
        simpa [and_assoc] using hall
      rw [hsame]
      exact .refl m

theorem held_eq_true {i : Nat} : m.held i = true ↔
    ∃ (j : Nat) (h : Child), m.children[j]? = some h ∧ h.view.exited = false ∧ i ∈ h.holds := by
  rw [held, List.any_eq_true]
  simp only [Bool.and_eq_true, Bool.not_eq_true', List.contains_iff_mem]
  constructor
  · rintro ⟨h, hmem, hthere, hholds⟩
    obtain ⟨j, hj⟩ := List.getElem?_of_mem hmem
    exact ⟨j, h, hj, hthere, hholds⟩
  · rintro ⟨j, h, hj, hthere, hholds⟩
    exact ⟨h, List.mem_of_getElem? hj, hthere, hholds⟩

/-- Nobody comes to have a near end. -/
theorem Parts.held {m m' : Machine} {i : Nat} (h : m.Parts m') (hheld : m.held i = false) :
    m'.held i = false := by
  refine Bool.eq_false_iff.2 fun htrue => Bool.eq_false_iff.1 hheld ?_
  obtain ⟨j, c', hc', hthere, hholds⟩ := held_eq_true.1 htrue
  obtain hsame | ⟨c, hc, -, -, htold⟩ := h.child j
  · exact held_eq_true.2 ⟨j, c', hsame.symm.trans hc', hthere, hholds⟩
  · cases hc'.symm.trans htold
    refine held_eq_true.2 ⟨j, c, hc, Bool.eq_false_iff.2 fun hexited => ?_, ?_⟩
    · rw [Child.exited_part m.single hexited] at hthere
      cases hthere
    · rwa [(c.sameEnds_part m.single).holds_eq] at hholds

/-- As long as all lines are open nobody is told anything. -/
theorem release_of_open (h : ∀ c ∈ m.children, c.near ≠ none) : m.release = m := by
  have hpart : ∀ i, m.part i = m := by
    intro i
    unfold part
    split
    · rfl
    · next c hc =>
      have hsome := Option.isSome_iff_ne_none.2 (h c (List.mem_of_getElem? hc))
      rw [Option.isNone_eq_false_iff.2 hsome]
      rfl
  have hround : ∀ is : List Nat, is.foldl part m = m := by
    intro is
    induction is with
    | nil => rfl
    | cons i is ih => rw [List.foldl_cons, hpart, ih]
  have hrounds : ∀ rounds : List Nat,
      rounds.foldl (fun m _ => (List.range m.children.length).foldl part m) m = m := by
    intro rounds
    induction rounds with
    | nil => rfl
    | cons k rounds ih => rw [List.foldl_cons, hround, ih]
  exact hrounds _

/-- **As long as another child has the near end open,** whose own line is not closed, a child is
told nothing. -/
theorem release_held {i j : Nat} {h : Child} (hc : m.children[i]? = some c)
    (hh : m.children[j]? = some h) (hthere : h.view.exited = false) (hholds : i ∈ h.holds)
    (hnear : h.near ≠ none) : m.release.children[i]? = some c := by
  have hkept : ∀ (is : List Nat) (m : Machine), m.children[j]? = some h →
      (is.foldl part m).children[i]? = m.children[i]? := by
    intro is
    induction is with
    | nil => exact fun _ _ => rfl
    | cons k is ih =>
      intro m hh
      refine (ih (m.part k) ((parts_part m k).stays hh (.inl hnear))).trans ?_
      by_cases hki : k = i
      · subst hki
        rw [part_of_held (held_eq_true.2 ⟨j, h, hh, hthere, hholds⟩)]
      · exact part_ne hki
  have hrounds : ∀ (rounds : List Nat) (m : Machine), m.children[j]? = some h →
      (rounds.foldl (fun m _ => (List.range m.children.length).foldl part m) m).children[i]? =
        m.children[i]? := by
    intro rounds
    induction rounds with
    | nil => exact fun _ _ => rfl
    | cons k rounds ih =>
      intro m hh
      exact (ih _ ((Parts.foldl parts_part _ m).stays hh (.inl hnear))).trans (hkept _ m hh)
  rw [release, hrounds _ m hh, hc]

/-! ## Closing and forking -/

/-- The machine of which the near end of a line was closed, before anybody is told. -/
def shut (m : Machine) (line : Line) (pid : Pid) : Machine :=
  (m.update pid fun c => { c with near := none, parted := false }).close [line.near]

theorem closeLine_of_atLine (h : m.atLine? line = some (pid, c)) :
    m.closeLine line = (m.shut line pid).release := by
  rw [closeLine, h]
  rfl

/-- What the children are when a near end was closed, before anybody is told. -/
theorem children_shut {i : Nat} (hc : m.children[i]? = some c) :
    (m.shut line ((i : Int) + 1)).children =
      m.children.set i { c with near := none, parted := false } := by
  have hchild : m.child? ((i : Int) + 1) = some c := by rw [child?_succ, hc]
  refine (children_update hchild _).trans ?_
  rw [index_succ]

/-- **To close the near end of a line** is to give up its number. -/
theorem closeLine_eq (h : m.atLine? line = some (pid, c)) :
    (m.closeLine line).lines = m.lines.set (index pid) (none, c.far) ∧
      (m.closeLine line).children.map Child.holds = m.children.map Child.holds ∧
      (m.closeLine line).descriptors = m.descriptors.filter (· != line.near) := by
  obtain ⟨i, rfl, hget, -⟩ := atLine?_eq_some h
  have hchild : m.child? ((i : Int) + 1) = some c := by rw [child?_succ, hget]
  obtain ⟨hlines, hholds, hdescriptors⟩ := keepsLines_release (m.shut line ((i : Int) + 1))
  rw [closeLine_of_atLine h, hlines, hholds, hdescriptors]
  refine ⟨lines_update hchild _, ?_, ?_⟩
  · rw [children_shut hget, ← index_succ i]
    exact map_set_of_same hchild rfl
  · rw [shut, descriptors_close, descriptors_update]

/-- The child at the far end of a line is told nothing as long as another one has the near end
open. -/
theorem closeLine_held {i j : Nat} {k : Child} (h : m.atLine? line = some ((i : Int) + 1, c))
    (hk : m.children[j]? = some k) (hij : i ≠ j) (hthere : k.view.exited = false)
    (hholds : i ∈ k.holds) (hnear : k.near ≠ none) :
    (m.closeLine line).child? ((i : Int) + 1) = some { c with near := none, parted := false } := by
  have hget := getElem?_of_atLine? h
  rw [closeLine_of_atLine h, child?_succ]
  have hc : (m.shut line ((i : Int) + 1)).children[i]? =
      some { c with near := none, parted := false } := by
    rw [children_shut hget, List.getElem?_set_self (List.getElem?_eq_some_iff.1 hget).1]
  have hk : (m.shut line ((i : Int) + 1)).children[j]? = some k := by
    rw [children_shut hget, List.getElem?_set_ne hij, hk]
  exact release_held hc hk hthere hholds hnear

/-- The near ends that are open with one of some numbers. -/
theorem mem_nearEnds {numbers : List Int} {i : Nat} :
    i ∈ m.nearEnds numbers ↔ ∃ n ∈ numbers, ∃ far, m.lines[i]? = some (some n, far) := by
  rw [nearEnds, List.mem_filter, List.mem_range, lines_getElem?]
  constructor
  · rintro ⟨hlt, hany⟩
    rw [List.getElem?_eq_getElem hlt] at hany ⊢
    obtain ⟨n, hnear, hmem⟩ := (Option.any_eq_true _ _).1 hany
    exact ⟨n, List.contains_iff_mem.1 hmem, _, congrArg (fun near => some (near, _)) hnear⟩
  · rintro ⟨n, hn, far, hline⟩
    obtain ⟨c, hc, hends⟩ := Option.map_eq_some_iff.1 hline
    refine ⟨(List.getElem?_eq_some_iff.1 hc).1, ?_⟩
    rw [hc, Option.bind_some, show c.near = some n from congrArg Prod.fst hends]
    exact List.contains_iff_mem.2 hn

/-- **A child that is forked** inherits what its parent has open, but for the near end of its line,
and holds the near ends among what it keeps of that; the parent closes the far end. -/
theorem fork_eq (m : Machine) (line : Line) (program : Program) :
    ∃ c, (m.fork line program).2.children = m.children ++ [c] ∧ c.program = program ∧
      c.inherited = m.descriptors.filter (· != line.near) ∧
      (c.near = some line.near ∧ c.far = line.far) ∧
      c.holds = m.nearEnds (program.keeps c.inherited c.far) ∧
      (m.fork line program).2.lines = m.lines ++ [(some line.near, line.far)] ∧
      (m.fork line program).2.descriptors = m.descriptors.filter (· != line.far) :=
  ⟨_, rfl, rfl, rfl, ⟨rfl, rfl⟩, rfl, List.map_append, descriptors_close m line.far⟩

end Machine

end Overseer
