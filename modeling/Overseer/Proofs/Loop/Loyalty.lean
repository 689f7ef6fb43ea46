import Overseer.Proofs.Channel.Sending
import Overseer.Proofs.Process.Inflow
import Overseer.Server.Basic

/-!
# Loyal code

The code of a server is arbitrary. What a loop relies on is that it is loyal to the loop that calls
it (`Code.Loyal`): whatever it does to the process is a course, so it neither takes up a request to
quit nor binds the signals anew; it leaves the loop as managed as it was; and it adds nothing to
what can be received. Code is loyal if it is made of what the code of a server can do, less those
two things.
-/

namespace Overseer

variable {σ : Type}

/-- What happens to a world while loyal code runs in it. -/
structure World.Goes (w : World σ) (notes : List Note) (w' : World σ) : Prop where
  managed_eq : w'.context.managed = w.context.managed
  interruptible_eq : w'.context.channel.interruptible = w.context.channel.interruptible
  course : w.process.Course notes w'.process
  pending_le : w'.pendingInput ≤ w.pendingInput

namespace World

/-- The world with another channel and another process. -/
def holding (w : World σ) (channel : Channel) (process : Process) : World σ :=
  { w with context := { w.context with channel }, process }

variable {w w' w'' : World σ} {notes notes' : List Note}

theorem Goes.refl (w : World σ) : w.Goes [] w := ⟨rfl, rfl, .refl _, Nat.le_refl _⟩

theorem Goes.trans (h : w.Goes notes w') (h' : w'.Goes notes' w'') :
    w.Goes (notes ++ notes') w'' :=
  ⟨h'.managed_eq.trans h.managed_eq, h'.interruptible_eq.trans h.interruptible_eq,
    h.course.trans h'.course, Nat.le_trans h'.pending_le h.pending_le⟩

/-- Where the channel is left alone only the course of the process counts. -/
theorem Goes.of_course (hchannel : w'.context.channel = w.context.channel)
    (hmanaged : w'.context.managed = w.context.managed) (h : w.process.Course notes w'.process) :
    w.Goes notes w' := by
  refine ⟨hmanaged, by rw [hchannel], h, ?_⟩
  rw [pendingInput, pendingInput, hchannel]
  exact Nat.add_le_add_left h.inflow_le _

end World

namespace Process

/-- A process that waits to go on is on its course. -/
theorem Course.resume (p : Process) : ∃ notes, Course p notes p.resume := by
  unfold Process.resume
  split
  · exact ⟨_, .refl p⟩
  · refine Course.await (fun ran p b p' h => ?_) rfl
    cases h
    exact ⟨_, .refl p⟩

/-- So is one that waits to be asked to quit. -/
theorem Course.awaitQuit (p : Process) : ∃ notes, Course p notes p.awaitQuit := by
  unfold Process.awaitQuit
  split
  · exact ⟨_, .refl p⟩
  · refine Course.await (fun ran p b p' h => ?_) rfl
    split at h <;> cases h
    exact ⟨_, .refl p⟩

/-- And one that waits for nothing. -/
theorem Course.hang (p : Process) : ∃ notes, Course p notes p.hang :=
  Course.await (fun _ _ _ _ h => by cases h) rfl

/-- Writing does nothing to the signals. -/
theorem Course.write (p : Process) (xs : Octets) (d : Option Descriptor) :
    Course p [] (p.write xs d).2 := by
  unfold Process.write
  split
  · exact .refl p
  · split
    · exact .refl p
    · exact .own ⟨rfl, rfl, rfl, List.suffix_refl _⟩

theorem Course.writes {xs : Octets} {d : Option Descriptor} {p : Process}
    {out : Except ChannelError Unit × Process} (h : Channel.Writes transport xs d p out) :
    Course p [] out.2 := by
  have hwrite : ∀ {p p' : Process} {xs : Octets} {d : Option Descriptor}
      {r : Except IoError Nat}, transport.write p xs d = (r, p') → Course p [] p' := by
    intro p p' xs d r h
    have hcourse := Course.write p xs d
    rwa [show p.write xs d = (r, p') from h] at hcourse
  induction h with
  | done => exact .refl _
  | refused _ h | failed _ _ h => exact hwrite h
  | accepted _ _ h _ ih | interrupted _ _ h _ ih => exact (hwrite h).trans ih

/-- A call for the next frame is a course. -/
theorem Course.fetches {c : Channel} {p : Process}
    {out : Reception (Frame × Option Descriptor) × Channel × Process}
    (h : Channel.Fetches transport c p out) : ∃ notes, Course p notes out.2.2 := by
  have hread : ∀ {p p' : Process} {r : Option Reading},
      transport.read p Channel.chunkSize = (r, p') → ∃ notes, Course p notes p' := by
    intro p p' r h
    have hcourse := Course.ofRead p Channel.chunkSize
    rwa [show p.read Channel.chunkSize = (r, p') from h] at hcourse
  induction h with
  | settled => exact ⟨_, .refl _⟩
  | dry _ h | broken _ h _ => exact hread h
  | onward _ h _ _ ih =>
    obtain ⟨notes, hfirst⟩ := hread h
    obtain ⟨notes', hrest⟩ := ih
    exact ⟨_, hfirst.trans hrest⟩

end Process

namespace Code

/-- Code after which the loop can go on as if it had not run, but for what happened to the process
meanwhile. -/
def Loyal {α : Type} (code : Code σ α) : Prop :=
  ∀ w a w', code w = .ok a w' → ∃ notes, w.Goes notes w'

/-- Code after code. -/
theorem bind_apply {α β : Type} (code : Code σ α) (f : α → Code σ β) (w : World σ) :
    (code >>= f) w =
      match code w with
      | .ok a w => f a w
      | .error halt w => .error halt w := by
  show EStateM.bind code f w = _
  unfold EStateM.bind
  cases code w <;> rfl

theorem get_bind {β : Type} (f : World σ → Code σ β) (w : World σ) :
    ((get : Code σ (World σ)) >>= f) w = f w w := rfl

/-- Receiving a message fetches the next frame. -/
theorem receive_apply {w : World σ} {r : Reception (Frame × Option Descriptor)} {channel : Channel}
    {process : Process}
    (h : Channel.nextFrame Process.transport w.context.channel w.process = (r, channel, process)) :
    receive w =
      match r.toEnvelope with
      | .waiting => .error (haltOf process) (w.holding channel process)
      | r => .ok r (w.holding channel process) := by
  simp only [receive, receiving, Channel.receive_eq, h]
  cases r.toEnvelope <;> rfl

theorem modifySignals_apply {α : Type} (f : SignalState → α × SignalState) (w : World σ) :
    modifySignals f w = .ok (f w.process.signals).1
      { w with process := { w.process with signals := (f w.process.signals).2 } } := rfl

theorem takePending_apply (w : World σ) :
    takePending w = .ok w.process.signals.takePending.1
      { w with process := { w.process with signals := w.process.signals.takePending.2 } } := rfl

variable {α β : Type}

theorem Loyal.pure (a : α) : Loyal (pure a : Code σ α) := by
  intro w a' w' h
  cases h
  exact ⟨_, .refl w⟩

theorem Loyal.bind {code : Code σ α} {f : α → Code σ β} (h : Loyal code) (hf : ∀ a, Loyal (f a)) :
    Loyal (code >>= f) := by
  intro w b w'' hrun
  rw [bind_apply] at hrun
  split at hrun
  · next a w' hfirst =>
    obtain ⟨notes, hgo⟩ := h w a w' hfirst
    obtain ⟨notes', hgo'⟩ := hf a w' b w'' hrun
    exact ⟨_, hgo.trans hgo'⟩
  · cases hrun

/-- Giving up is loyal. -/
theorem Loyal.throw (halt : Halt) : Loyal (throw halt : Code σ α) := by
  intro w a w' h
  cases h

/-- Code that changes neither the channel nor the process is loyal. -/
theorem Loyal.of_own {code : Code σ α} (h : ∀ w a w', code w = .ok a w' →
    w'.context.channel = w.context.channel ∧ w'.context.managed = w.context.managed ∧
      w'.process = w.process) : Loyal code := by
  intro w a w' hrun
  obtain ⟨hchannel, hmanaged, hprocess⟩ := h w a w' hrun
  refine ⟨[], .of_course hchannel hmanaged ?_⟩
  rw [hprocess]
  exact .refl _

theorem Loyal.modifyServer (f : σ → σ) : Loyal (modifyServer f) := by
  refine .of_own fun w a w' h => ?_
  cases h
  exact ⟨rfl, rfl, rfl⟩

theorem Loyal.quit : Loyal (quit : Code σ Unit) := by
  refine .of_own fun w a w' h => ?_
  cases h
  exact ⟨rfl, rfl, rfl⟩

theorem Loyal.takeDescriptor : Loyal (takeDescriptor : Code σ (Option Descriptor)) := by
  refine .of_own fun w a w' h => ?_
  cases h
  exact ⟨rfl, rfl, rfl⟩

/-- Code that takes the process on a course, and does nothing else, is loyal. -/
theorem Loyal.of_course {code : Code σ α} (h : ∀ w a w', code w = .ok a w' →
    w'.context = w.context ∧ ∃ notes, w.process.Course notes w'.process) : Loyal code := by
  intro w a w' hrun
  obtain ⟨hcontext, notes, hcourse⟩ := h w a w' hrun
  exact ⟨notes, .of_course (by rw [hcontext]) (by rw [hcontext]) hcourse⟩

/-- Whatever is sent, sending it is loyal. -/
theorem Loyal.sending {send : Channel → Process → Except ChannelError Unit × Process}
    (h : ∀ c (p : Process), ∃ notes, p.Course notes (send c p).2) :
    Loyal (sending send : Code σ Unit) := by
  refine .of_course fun w a w' hrun => ?_
  unfold Code.sending at hrun
  obtain ⟨notes, hcourse⟩ := h w.context.channel w.process
  split at hrun
  · next hsend =>
    cases hrun
    rw [hsend] at hcourse
    exact ⟨rfl, notes, hcourse⟩
  · cases hrun

/-- Writing a frame, or failing to encode it, is a course. -/
theorem course_of_encode (r : Except ChannelError Octets) (d : Option Descriptor) (p : Process) :
    ∃ notes, p.Course notes
      (match r with
        | .error e => (.error e, p)
        | .ok xs => Channel.writeFrame Process.transport xs d p :
        Except ChannelError Unit × Process).2 := by
  cases r with
  | error e => exact ⟨_, .refl p⟩
  | ok xs => exact ⟨_, .writes ((Channel.writes_iff Process.transport_lawful).2 rfl)⟩

theorem Loyal.reply (m : Message) : Loyal (reply m : Code σ Unit) :=
  .sending fun c p => course_of_encode (Frame.encodeMessage m false c.limit) none p

theorem Loyal.replyWith (m : Message) (d : Descriptor) : Loyal (replyWith m d : Code σ Unit) :=
  .sending fun c p => course_of_encode (Frame.encodeMessage m true c.limit) (some d) p

theorem Loyal.sendScalar (data : Octets) : Loyal (sendScalar data : Code σ Unit) :=
  .sending fun c p => course_of_encode (Frame.encodeScalar data c.limit) none p

/-- Signals that arrive do what they are bound to. -/
theorem disturb_ok {f : Process → Process} (h : ∀ p : Process, ∃ notes, p.Course notes (f p))
    {w w' : World σ} (hrun : disturb f w = .ok () w') :
    w'.context = w.context ∧ ∃ notes, w.process.Course notes w'.process := by
  unfold Code.disturb at hrun
  obtain ⟨notes, hcourse⟩ := h w.process
  obtain ⟨notes', hresume⟩ := Process.Course.resume (f w.process)
  simp only at hrun
  split at hrun <;> cases hrun
  exact ⟨rfl, _, hcourse.trans hresume⟩

theorem Loyal.disturb {f : Process → Process}
    (h : ∀ p : Process, ∃ notes, p.Course notes (f p)) : Loyal (disturb f : Code σ Unit) :=
  .of_course fun _ _ _ hrun => disturb_ok h hrun

theorem Loyal.preempt : Loyal (preempt : Code σ Unit) := .disturb Process.Course.preempt

theorem Loyal.raise (signal : Signal) : Loyal (raise signal : Code σ Unit) :=
  .disturb fun p => Process.Course.deliver p signal

theorem Loyal.requestQuit (signal : Signal) : Loyal (requestQuit signal : Code σ Unit) := by
  refine .of_course fun w a w' h => ?_
  cases h
  exact ⟨rfl, _, .request w.process signal⟩

/-- Receiving is loyal too: what it takes from the process it leaves in the channel. -/
theorem Loyal.receive : Loyal (receive : Code σ (Reception Envelope)) := by
  intro w a w' h
  generalize hout : Channel.nextFrame Process.transport w.context.channel w.process = out
  obtain ⟨r, channel, process⟩ := out
  have hfetch := (Channel.fetches_iff Process.transport_lawful).2 hout
  obtain ⟨notes, hcourse⟩ := Process.Course.fetches hfetch
  rw [receive_apply hout] at h
  split at h <;> cases h
  exact ⟨notes, rfl, hfetch.interruptible_eq, hcourse, hfetch.pending.1⟩

theorem Loyal.takePending : Loyal (takePending : Code σ (List Signal)) := by
  refine .of_course fun w a w' h => ?_
  cases h
  exact ⟨rfl, _, .collect w.process⟩

theorem Loyal.spin : Loyal (spin : Code σ Unit) := by
  refine .of_course fun w a w' h => ?_
  unfold Code.spin at h
  simp only at h
  split at h <;> cases h
  exact ⟨rfl, Process.Course.awaitQuit w.process⟩

end Code

end Overseer
