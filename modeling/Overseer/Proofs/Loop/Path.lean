import Overseer.Proofs.Loop.Stage

/-!
# Paths through a loop

A `Path` is a part of the run of a server, stage by stage, with the notes that its signals leave in
between. Whoever's code runs, a path takes the world on a course (`Path.goes`); and where the code
of the server is loyal the whole run is a path (`path_of_reaches`). So what is to be said of a run
is said of its paths, by induction, with the notes for what happened on the way.
-/

namespace Overseer.Loop

variable {σ : Type}

/-- One stage to the next. A request that a loop takes up when it ends leaves no note. -/
inductive Step (srv : Server σ) (table : SignalTable (Callback σ)) :
    Stage σ → List Note → Stage σ → Prop
  | goes {x : Stage σ} {notes : List Note} (hx : (x.next srv table).isLeft = false)
      (h : x.world.Goes notes (x.next srv table).world) : Step srv table x notes (x.next srv table)
  | ends {x : Stage σ} (hx : x.isLeft = false) (h : (x.next srv table).isLeft = true) :
      Step srv table x [] (x.next srv table)

/-- A part of a run: the stages from one on, up to another that is not among them, and the notes
that were left in between. -/
inductive Path (srv : Server σ) (table : SignalTable (Callback σ)) (x : Stage σ) :
    List (Stage σ) → List Note → Stage σ → Prop
  | nil : Path srv table x [] [] x
  | snoc {y z : Stage σ} {stages : List (Stage σ)} {notes notes' : List Note}
      (h : Path srv table x stages notes y) (hstep : Step srv table y notes' z) :
      Path srv table x (stages ++ [y]) (notes ++ notes') z

variable {srv : Server σ} {table : SignalTable (Callback σ)} {x y z : Stage σ}
  {stages stages' : List (Stage σ)} {notes notes' : List Note}

/-- Where a step starts the loop has not ended. -/
theorem Step.isLeft_eq (h : Step srv table x notes y) : x.isLeft = false := by
  cases h with
  | goes hx _ =>
    cases x with
    | left r => exact hx
    | _ => rfl
  | ends hx _ => exact hx

theorem Step.next_eq (h : Step srv table x notes y) : y = x.next srv table := by
  cases h <;> rfl

/-- The step to the end leaves no note. -/
theorem Step.notes_eq_nil (h : Step srv table x notes y) (hy : y.isLeft = true) : notes = [] := by
  cases h with
  | goes hy' _ =>
    rw [hy] at hy'
    cases hy'
  | ends _ _ => rfl

theorem Path.append (h : Path srv table x stages notes y) (h' : Path srv table y stages' notes' z) :
    Path srv table x (stages ++ stages') (notes ++ notes') z := by
  induction h' with
  | nil => simpa using h
  | snoc _ hstep ih =>
    rw [← List.append_assoc, ← List.append_assoc]
    exact ih.snoc hstep

theorem Path.reaches (h : Path srv table x stages notes y) : Reaches srv table x y := by
  induction h with
  | nil => exact .refl
  | snoc _ hstep ih =>
    rw [hstep.next_eq]
    exact ih.next

/-- **A path takes the world on a course.** -/
theorem Path.goes (h : Path srv table x stages notes y) (hy : y.isLeft = false) :
    x.world.Goes notes y.world := by
  induction h with
  | nil => exact .refl _
  | snoc _ hstep ih =>
    have hgo := ih hstep.isLeft_eq
    cases hstep with
    | goes _ hnext => exact hgo.trans hnext
    | ends _ hend =>
      rw [hy] at hend
      cases hend

/-- What a step does. -/
theorem Step.leads (h : Step srv table x notes y) : Leads srv table x y := by
  rw [h.next_eq]
  exact next_leads h.isLeft_eq

/-! ## Every stage has a step -/

/-- A read moves what it brings to the buffer. -/
theorem goes_of_read {w : World σ} {r : Reading} {process : Process} {failure : Option ChannelError}
    {channel : Channel} (hread : w.process.readOn Channel.chunkSize = (some r, process))
    (habsorb : w.context.channel.absorb r = (failure, channel)) :
    ∃ notes, w.Goes notes (w.holding channel process) := by
  obtain ⟨notes, hcourse⟩ := Process.Course.readOn w.process Channel.chunkSize
  rw [hread] at hcourse
  have hadd := Process.inflow_readOn_add hread
  have hbuffer := (Channel.length_buffer_absorb habsorb).1
  refine ⟨notes, rfl, Channel.interruptible_absorb habsorb, hcourse, ?_⟩
  show channel.buffer.length + process.inflow ≤ w.context.channel.buffer.length + w.process.inflow
  omega

/-- **A step that does not end the loop is on a course**, if the code that runs in it is loyal. -/
theorem Leads.goes (h : Leads srv table x y) (hloyal : x.Loyal srv table) (hy : y.isLeft = false) :
    ∃ notes, x.world.Goes notes y.world := by
  cases h with
  | prepared h | handled h | called h => exact hloyal _ h
  | @answered w answer channel h =>
    refine ⟨[], rfl, Channel.interruptible_settled h, .refl _, ?_⟩
    exact Nat.add_le_add_right (Channel.length_buffer_settled h).1 _
  | unanswered | item | interrupted | unmanaged | looks | again => exact ⟨_, .refl _⟩
  | preempted w =>
    obtain ⟨notes, hcourse⟩ := Process.Course.preempt w.process
    exact ⟨notes, .of_course rfl rfl hcourse⟩
  | @dry w process hread =>
    obtain ⟨notes, hcourse⟩ := Process.Course.readOn w.process Channel.chunkSize
    rw [hread] at hcourse
    exact ⟨notes, .of_course rfl rfl hcourse⟩
  | broken hread habsorb | onward hread habsorb => exact goes_of_read hread habsorb
  | @collected w _ => exact ⟨_, .of_course rfl rfl (.collect w.process)⟩
  | closed | excused | failed | waits | stops | setupHalts | handlingHalts | callingHalts =>
    cases hy

/-- **Where loyal code runs every part of the run is a path.** -/
theorem path_of_reaches (h : Loyally srv table x) (hy : Reaches srv table x y) :
    ∃ stages notes, Path srv table x stages notes y := by
  induction hy with
  | refl => exact ⟨_, _, .nil⟩
  | @next y hy ih =>
    obtain ⟨stages, notes, hpath⟩ := ih
    cases hleft : y.isLeft with
    | true =>
      cases y with
      | left r => exact ⟨stages, notes, hpath⟩
      | _ => cases hleft
    | false =>
      cases hnext : (y.next srv table).isLeft with
      | true => exact ⟨_, _, hpath.snoc (.ends hleft hnext)⟩
      | false =>
        obtain ⟨notes', hgo⟩ := (next_leads hleft).goes (h y hy) hnext
        exact ⟨_, _, hpath.snoc (.goes hnext hgo)⟩

end Overseer.Loop
