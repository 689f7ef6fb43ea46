import Overseer.Proofs.Channel.CutOff
import Overseer.Proofs.Process.Flow

/-!
# What a process can still read

The supply of a process is what is queued for it and what its peer still writes
(`Process.supply`). Signals, waiting and whatever the process does but reading draw nothing from it:
it stays, or is cut off behind some segment because the inbox is shut (`Process.Undrawn`). A read
draws a front part, or nothing (`Process.draws_read`). So if the peer writes a stream, or has begun
to, what is held by a channel and what can still be drawn stay next to each other in that stream
(`Channel.Awaits`), and a call that brings a frame brings the next one, with its own descriptor
(`Channel.Fetches.fetched`).
-/

namespace Overseer

/-- What an open pipe queues of a segment. -/
def Pipe.admitted (s : Segment) : List Segment := (({} : Pipe).send s).2.queue

theorem Pipe.send_open {p : Pipe} (h : p.shut = false) (s : Segment) :
    (p.send s).2 = { p with queue := p.queue ++ admitted s } := by
  obtain ⟨queue, shut, reset⟩ := p
  obtain rfl : shut = false := h
  simp only [admitted, send, Bool.false_eq_true, if_false]
  split
  · simp only [List.append_nil]
  · split
    · simp only [List.append_nil]
    · rfl

theorem Pipe.send_shut {p : Pipe} (h : p.shut = true) (s : Segment) : (p.send s).2 = p := by
  unfold send
  rw [if_pos h]
  split <;> rfl

/-- What is queued when a stimulus comes, while the inbox is open. -/
def Stimulus.segments : Stimulus → List Segment
  | arrive segment => Pipe.admitted segment
  | finish | hangUp _ | signal _ => []

namespace Process

/-- What a process can still read: what is queued, and what will be unless the inbox is shut. -/
def supply (p : Process) : List Segment :=
  p.inbox.queue ++ if p.inbox.shut then [] else p.coming.flatMap Stimulus.segments

/-- Nothing is drawn from the supply. It may be cut off. -/
def Undrawn (p p' : Process) : Prop := p'.supply <+: p.supply

variable {p p' p'' : Process} {s : Stream} {n : Nat}

theorem Undrawn.refl (p : Process) : p.Undrawn p := List.prefix_rfl

theorem Undrawn.trans (h : p.Undrawn p') (h' : p'.Undrawn p'') : p.Undrawn p'' :=
  List.IsPrefix.trans h' h

/-! ## Signals -/

/-- The input of a process is as it was, but that the inbox may have been shut, if it is the inbox
that is shut when the process is asked to quit. -/
structure SameInput (p p' : Process) : Prop where
  queue_eq : p'.inbox.queue = p.inbox.queue
  reset_eq : p'.inbox.reset = p.inbox.reset
  coming_eq : p'.coming = p.coming
  socket_eq : p'.socket = p.socket
  wakeup_eq : p'.signals.wakeup = p.signals.wakeup
  shut : p.inbox.shut = true → p'.inbox.shut = true
  shut_of : p'.inbox.shut = true → p.inbox.shut = true ∨ p.signals.wakeup = some p.socket

theorem SameInput.of_eq (hinbox : p'.inbox = p.inbox) (hcoming : p'.coming = p.coming)
    (hsocket : p'.socket = p.socket) (hwakeup : p'.signals.wakeup = p.signals.wakeup) :
    p.SameInput p' := by
  refine ⟨congrArg _ hinbox, congrArg _ hinbox, hcoming, hsocket, hwakeup, ?_, ?_⟩
  · exact fun hshut => hinbox ▸ hshut
  · exact fun hshut => .inl (hinbox ▸ hshut)

theorem SameInput.refl (p : Process) : p.SameInput p := .of_eq rfl rfl rfl rfl

theorem SameInput.trans (h : p.SameInput p') (h' : p'.SameInput p'') : p.SameInput p'' := by
  refine ⟨h'.queue_eq.trans h.queue_eq, h'.reset_eq.trans h.reset_eq,
    h'.coming_eq.trans h.coming_eq, h'.socket_eq.trans h.socket_eq,
    h'.wakeup_eq.trans h.wakeup_eq, h'.shut ∘ h.shut, fun hshut => ?_⟩
  rcases h'.shut_of hshut with hshut | hwakeup
  · exact h.shut_of hshut
  · rw [h.wakeup_eq, h.socket_eq] at hwakeup
    exact .inr hwakeup

/-- An inbox that is shut cuts the supply off behind what is queued. -/
theorem supply_isPrefix (hqueue : p'.inbox.queue = p.inbox.queue)
    (hcoming : p'.coming.flatMap Stimulus.segments = p.coming.flatMap Stimulus.segments)
    (hshut : p.inbox.shut = true → p'.inbox.shut = true) : p.Undrawn p' := by
  rw [Undrawn, supply, supply, hqueue, hcoming, List.prefix_append_right_inj]
  cases hnow : p'.inbox.shut with
  | true => exact List.nil_prefix
  | false =>
    cases hbefore : p.inbox.shut with
    | true =>
      rw [hshut hbefore] at hnow
      cases hnow
    | false => exact List.prefix_rfl

theorem SameInput.undrawn (h : p.SameInput p') : p.Undrawn p' :=
  supply_isPrefix h.queue_eq (congrArg _ h.coming_eq) h.shut

/-- Only the descriptor that is registered is shut. -/
theorem sameInput_shutRead (p : Process) {fd : Option Int}
    (h : fd = none ∨ fd = p.signals.wakeup) : p.SameInput (p.shutRead fd) := by
  unfold shutRead
  split
  · next hfd =>
    refine ⟨rfl, rfl, rfl, rfl, rfl, fun _ => rfl, fun _ => .inr ?_⟩
    rcases h with rfl | rfl
    · cases hfd
    · exact hfd
  · exact .refl p

theorem wakeup_deliver (s : SignalState) (signal : Signal) :
    (s.deliver signal).2.wakeup = s.wakeup := by
  rw [SignalState.deliver_eq, SignalState.foldl_take_wakeup]

/-- What a handler shuts is what is registered. -/
theorem handled_of_deliver {s : SignalState} {signal : Signal} {fd : Option Int}
    (h : (s.deliver signal).1 = .handled fd) : fd = none ∨ fd = s.wakeup := by
  unfold SignalState.deliver at h
  cases hd : s.dispositions signal <;> rw [hd] at h <;> cases h
  · exact .inr rfl
  · exact .inl rfl
  · exact .inl rfl

theorem sameInput_act (p : Process) (signal : Signal) : p.SameInput (p.act signal).2 := by
  have hwakeup := wakeup_deliver p.signals signal
  have hhandled := @handled_of_deliver p.signals signal
  unfold act
  generalize p.signals.deliver signal = out at hwakeup hhandled
  obtain ⟨delivery, signals⟩ := out
  have hsignals : p.SameInput { p with signals } := .of_eq rfl rfl rfl hwakeup
  cases delivery with
  | ignored => exact hsignals
  | unbound effect => cases effect <;> exact .of_eq rfl rfl rfl hwakeup
  | handled fd =>
    exact hsignals.trans
      (sameInput_shutRead _ ((hhandled rfl).imp_right fun hfd => hfd.trans hwakeup.symm))

theorem sameInput_requestQuit (p : Process) (signal : Signal) :
    p.SameInput (p.requestQuit signal) := by
  have hsignals : p.SameInput { p with signals := (p.signals.requestQuit signal).2 } :=
    .of_eq rfl rfl rfl rfl
  exact hsignals.trans (sameInput_shutRead _ (.inr rfl))

theorem sameInput_hold (p : Process) (signal : Signal) : p.SameInput (p.hold signal) := by
  unfold hold
  split <;> exact .of_eq rfl rfl rfl rfl

theorem sameInput_release (x : Bool × Process) (signal : Signal) :
    x.2.SameInput (release x signal).2 := by
  unfold release
  split
  · exact sameInput_act x.2 signal
  · exact sameInput_hold x.2 signal

/-- What signals leave alone one by one they leave alone together. -/
theorem sameInput_foldl {α : Type} (view : α → Process) {f : α → Signal → α}
    (h : ∀ a signal, (view a).SameInput (view (f a signal))) (a : α) (signals : List Signal) :
    (view a).SameInput (view (signals.foldl f a)) := by
  induction signals generalizing a with
  | nil => exact .refl _
  | cons signal signals ih => exact (h a signal).trans (ih _)

theorem sameInput_deliver (p : Process) (signal : Signal) : p.SameInput (p.deliver signal).2 := by
  unfold Process.deliver
  split
  · exact sameInput_act p signal
  · exact .refl p
  · split
    · exact .of_eq rfl rfl rfl rfl
    · split
      · have hruns : p.SameInput { p with status := .running } := .of_eq rfl rfl rfl rfl
        exact hruns.trans (sameInput_foldl Prod.snd sameInput_release (false, _) _)
      · exact sameInput_hold p signal

theorem sameInput_preempt (p : Process) : p.SameInput p.preempt := by
  unfold Process.preempt
  split
  · exact .refl p
  · next signals arrivals _ =>
    have harrivals : p.SameInput { p with arrivals } := .of_eq rfl rfl rfl rfl
    exact harrivals.trans (sameInput_foldl id sameInput_deliver _ signals)

/-! ## Waiting -/

/-- **What comes from outside draws nothing.** -/
theorem undrawn_meet {stimulus : Stimulus} {coming : List Stimulus}
    (h : p.coming = stimulus :: coming) :
    p.Undrawn { (p.meet stimulus).2 with coming } := by
  cases stimulus with
  | arrive segment =>
    show _ <+: p.supply
    cases hshut : p.inbox.shut with
    | true =>
      simp only [supply, meet, Pipe.send_shut hshut, hshut, if_true]
      exact List.prefix_rfl
    | false =>
      simp only [supply, meet, Pipe.send_open hshut, hshut, h, List.flatMap_cons,
        List.append_assoc]
      exact List.prefix_rfl
  | finish | hangUp =>
    show p.inbox.queue ++ [] <+: p.supply
    rw [List.append_nil]
    exact List.prefix_append ..
  | signal signal =>
    have hsame := sameInput_deliver p signal
    refine supply_isPrefix hsame.queue_eq ?_ hsame.shut
    rw [h]
    rfl

/-- **What everything that comes keeps is kept by waiting**, until the process goes on. A wait that
is in vain has seen all that was to come, unless it is not running any more. -/
theorem await_keeps {β : Type} {P : Process → Prop}
    (hmeet : ∀ {p : Process} {stimulus : Stimulus} {coming : List Stimulus}, P p →
      p.coming = stimulus :: coming → P { (p.meet stimulus).2 with coming })
    (goesOn : Bool → Process → Option (β × Process)) {coming : List Stimulus}
    (h : p.coming = coming) (hp : P p) :
    ∃ p', P p' ∧
      (await goesOn coming p = (none, p') ∧ (p'.status = .running →
          p'.coming = [] ∧ (p' = p ∨ ∃ ran, goesOn ran p' = none)) ∨
        ∃ ran b p'', goesOn ran p' = some (b, p'') ∧ await goesOn coming p = (some b, p'')) := by
  induction coming generalizing p with
  | nil =>
    have hsame : { p with coming := [] } = p := by rw [← h]
    exact ⟨p, hp, .inl ⟨congrArg (Prod.mk none) hsame, fun _ => ⟨h, .inl rfl⟩⟩⟩
  | cons stimulus coming ih =>
    have hmet := hmeet hp h
    obtain ⟨p', hp', hrest⟩ := ih (p := { (p.meet stimulus).2 with coming }) rfl hmet
    -- one that goes on waiting is not one that has waited for nothing
    have honward (hnone : (p.meet stimulus).2.status = .running →
          ∃ ran, goesOn ran { (p.meet stimulus).2 with coming } = none)
        (hlast : p'.status = .running → p'.coming = [] ∧
          (p' = { (p.meet stimulus).2 with coming } ∨ ∃ ran, goesOn ran p' = none))
        (hrun : p'.status = .running) :
        p'.coming = [] ∧ (p' = p ∨ ∃ ran, goesOn ran p' = none) := by
      obtain ⟨hcoming, rfl | hvain⟩ := hlast hrun
      · exact ⟨hcoming, .inr (hnone hrun)⟩
      · exact ⟨hcoming, .inr hvain⟩
    unfold await
    simp only
    split
    · next hended =>
      refine ⟨_, hmet, .inl ⟨rfl, fun hrun => ?_⟩⟩
      cases hended.symm.trans hrun
    · next hsuspended =>
      refine ⟨p', hp', hrest.imp_left fun hvain => ⟨hvain.1, honward (fun hrun => ?_) hvain.2⟩⟩
      cases hsuspended.symm.trans hrun
    · split
      · next hsome => exact ⟨_, hmet, .inr ⟨_, _, _, hsome, rfl⟩⟩
      · next hnone =>
        exact ⟨p', hp', hrest.imp_left fun hvain =>
          ⟨hvain.1, honward (fun _ => ⟨_, hnone⟩) hvain.2⟩⟩

/-- A process that waits draws nothing until it goes on. -/
theorem undrawn_await {β : Type} (goesOn : Bool → Process → Option (β × Process))
    {coming : List Stimulus} (h : p.coming = coming) :
    ∃ p', p.Undrawn p' ∧
      (await goesOn coming p = (none, p') ∨
        ∃ ran b p'', goesOn ran p' = some (b, p'') ∧ await goesOn coming p = (some b, p'')) := by
  obtain ⟨p', hundrawn, hrest⟩ := await_keeps (P := p.Undrawn)
    (fun hundrawn hcoming => hundrawn.trans (undrawn_meet hcoming)) goesOn h (.refl p)
  exact ⟨p', hundrawn, hrest.imp_left And.left⟩

/-- Waiting for something that is not to be read draws nothing at all. -/
theorem undrawn_await_of {β : Type} {goesOn : Bool → Process → Option (β × Process)}
    (hgo : ∀ ran p b p', goesOn ran p = some (b, p') → p' = p) :
    p.Undrawn (await goesOn p.coming p).2 := by
  obtain ⟨p', hundrawn, hrun | ⟨ran, b, p'', hsome, hrun⟩⟩ := undrawn_await goesOn rfl
  · rwa [hrun]
  · rw [hrun, hgo _ _ _ _ hsome]
    exact hundrawn

theorem undrawn_resume (p : Process) : p.Undrawn p.resume := by
  unfold resume
  split
  · exact .refl p
  · refine undrawn_await_of fun ran p b p' h => ?_
    cases h
    rfl

theorem undrawn_awaitQuit (p : Process) : p.Undrawn p.awaitQuit := by
  unfold awaitQuit
  split
  · exact .refl p
  · refine undrawn_await_of fun ran p b p' h => ?_
    split at h <;> cases h
    rfl

theorem undrawn_hang (p : Process) : p.Undrawn p.hang :=
  undrawn_await_of fun _ _ _ _ h => nomatch h

/-! ## Reading -/

/-- What a process can still read is a stream, or the front part of one. -/
structure Offers (p : Process) (s : Stream) : Prop where
  plain : ∀ segment ∈ p.supply, segment.Plain
  flow_isPrefix : Segment.flow p.supply <+: s

/-- Where nothing is drawn the same can be read, or a front part of it. -/
theorem Offers.of_undrawn (h : p.Offers s) (hundrawn : p.Undrawn p') : p'.Offers s := by
  obtain ⟨more, hsupply⟩ := hundrawn
  obtain ⟨hplain, hflow⟩ := h
  rw [← hsupply] at hplain hflow
  rw [Segment.flow_append] at hflow
  exact ⟨fun segment hmem => hplain segment (List.mem_append_left _ hmem),
    (List.prefix_append ..).trans hflow⟩

/-- What a read comes to where a stream can be read: a front part of it, or nothing that is to be
read. -/
inductive Draws (s : Stream) : Option Reading × Process → Prop
  | front {front back : Stream} {p : Process} (hne : front ≠ []) (hs : s = front ++ back)
      (h : p.Offers back) : Draws s (some (.data front.octets front.descriptors), p)
  | nothing {reading : Option Reading} {p : Process}
      (hnothing : ∀ r, reading = some r → r.octets = [] ∧ r.descriptors = []) (h : p.Offers s) :
      Draws s (reading, p)

/-- A read that does not wait. -/
theorem draws_readNow {r : Reading} (h : p.Offers s) (hn : n ≠ 0)
    (hnow : p.readNow n = some (r, p')) : Draws s (some r, p') := by
  have hqueue : ∀ segment ∈ p.inbox.queue, segment.Plain :=
    fun segment hmem => h.plain segment (List.mem_append_left _ hmem)
  unfold Process.readNow at hnow
  by_cases hempty : p.inbox.queue = []
  · -- the end, which draws nothing
    unfold Pipe.read at hnow
    rw [hempty] at hnow
    simp only at hnow
    split at hnow
    · next hread =>
      cases hnow
      split at hread
      · cases hread
        refine .nothing (fun r hr => ?_) (h.of_undrawn (supply_isPrefix hempty.symm rfl id))
        cases hr
        exact ⟨rfl, rfl⟩
      · split at hread <;> cases hread
        refine .nothing (fun r hr => ?_) h
        cases hr
        exact ⟨rfl, rfl⟩
    · cases hnow
  · have htakes := Pipe.takes_queued hqueue hempty hn
    generalize p.inbox.read false n = out at hnow htakes
    cases htakes with
    | nothing => cases hnow
    | @front front queue hne hflow hplain =>
      cases hnow
      obtain ⟨more, hs⟩ := h.flow_isPrefix
      rw [supply, Segment.flow_append, hflow, List.append_assoc, List.append_assoc] at hs
      refine .front hne hs.symm ⟨fun segment hmem => ?_, ?_⟩
      · rcases List.mem_append.1 hmem with hmem | hmem
        · exact hplain segment hmem
        · exact h.plain segment (List.mem_append_right _ hmem)
      · rw [supply, Segment.flow_append, ← List.append_assoc]
        exact List.prefix_append ..

/-- A read that waits. -/
theorem draws_await (h : p.Offers s) (hn : n ≠ 0) :
    Draws s (await (readAgain n) p.coming p) := by
  obtain ⟨p', hundrawn, hrun | ⟨ran, r, p'', hsome, hrun⟩⟩ :=
    undrawn_await (readAgain n) (show p.coming = p.coming from rfl)
  · rw [hrun]
    exact .nothing (fun r hr => nomatch hr) (h.of_undrawn hundrawn)
  · rw [hrun]
    unfold readAgain at hsome
    split at hsome
    · cases hsome
      refine .nothing (fun r hr => ?_) (h.of_undrawn hundrawn)
      cases hr
      exact ⟨rfl, rfl⟩
    · exact draws_readNow (h.of_undrawn hundrawn) hn hsome

/-- **A read draws the front part of what can be read**, or nothing. -/
theorem draws_read (h : p.Offers s) (hn : n ≠ 0) : Draws s (p.read n) := by
  have h' := h.of_undrawn (sameInput_preempt p).undrawn
  rw [read_eq]
  unfold readOn
  split
  · exact .nothing (fun r hr => nomatch hr) h'
  · exact draws_await h' hn
  · split
    · next hnow => exact draws_readNow h' hn hnow
    · exact draws_await h' hn

end Process

/-! ## Receiving -/

namespace Channel

/-- **What is sent and not received is held or can still be drawn**, one behind the other, as far as
it comes at all. -/
structure Awaits (c : Channel) (p : Process) (items : List Item) : Prop where
  sendable : ∀ item ∈ items, ∃ limit xs, item.encode limit = .ok xs
  parts : ∃ held back : Stream, held.octets = c.buffer ∧ held.descriptors = c.descriptors ∧
    held ++ back = items.flatMap Item.stream ∧ p.Offers back

variable {c c' : Channel} {p p' : Process} {items : List Item}

/-- Where nothing is drawn the same is awaited. -/
theorem Awaits.of_undrawn (h : c.Awaits p items) (hundrawn : p.Undrawn p') :
    c.Awaits p' items := by
  obtain ⟨held, back, hbuffer, hdescriptors, hparts, hoffers⟩ := h.parts
  exact ⟨h.sendable, held, back, hbuffer, hdescriptors, hparts, hoffers.of_undrawn hundrawn⟩

/-- **A frame that can be read off the buffer is that of the first item**, and its descriptor is the
first that is held. -/
theorem Awaits.first (h : c.Awaits p items) {frame : Frame} {rest : Octets}
    (hdec : Frame.decode c.limit c.buffer = .ok (some (frame, rest))) :
    ∃ item later, items = item :: later ∧ frame = item.frame ∧
      ∃ descriptors, c.descriptors = item.descriptor.toList ++ descriptors ∧
        Awaits { c with buffer := rest, descriptors } p later := by
  obtain ⟨held, back, hbuffer, hdescriptors, hparts, hoffers⟩ := h.parts
  cases items with
  | nil =>
    obtain ⟨rfl, -⟩ := List.append_eq_nil_iff.1 hparts
    rw [← hbuffer] at hdec
    cases hdec
  | cons item later =>
    obtain ⟨limit, xs, hencode⟩ := h.sendable item List.mem_cons_self
    have hcomplete : ∃ more, held = item.stream ++ more ∧
        more ++ back = later.flatMap Item.stream := by
      rw [List.flatMap_cons] at hparts
      rcases List.append_eq_append_iff.1 hparts with ⟨tail, hitem, hback⟩ | ⟨more, hheld, hmore⟩
      · -- what is held is not cut off inside of the frame, or nothing could be read
        have hoctets : item.octets = c.buffer ++ Stream.octets tail := by
          rw [← hbuffer, ← Stream.octets_append, ← hitem, Item.stream, Stream.octets_tagged]
        by_cases htail : tail = []
        · subst htail
          exact ⟨[], by rw [hitem, List.append_nil, List.append_nil], hback⟩
        · refine absurd hdec (Item.not_decode_of_cutOff hencode ⟨_, hoctets.symm⟩ ?_ _)
          intro hwhole
          rw [← hwhole, List.self_eq_append_right, Stream.octets_eq_nil] at hoctets
          exact htail hoctets
      · exact ⟨more, hheld, hmore.symm⟩
    obtain ⟨more, rfl, hmore⟩ := hcomplete
    rw [Stream.octets_append, Item.stream, Stream.octets_tagged] at hbuffer
    rw [Stream.descriptors_append, Item.stream,
      Stream.descriptors_tagged item.octets_ne_nil] at hdescriptors
    rw [← hbuffer] at hdec
    obtain ⟨rfl, rfl⟩ := Item.eq_of_decode hencode hdec
    exact ⟨item, later, rfl, rfl, _, hdescriptors.symm,
      fun item hmem => h.sendable item (List.mem_cons_of_mem _ hmem), more, back, rfl, rfl, hmore,
      hoffers⟩

/-- What a call comes to where items are awaited: the frame of the first one with its descriptor, or
it is interrupted and awaits the same; or it brings no frame, and then nothing is said of what
follows. -/
inductive Fetched (items : List Item) :
    Reception (Frame × Option Descriptor) × Channel × Process → Prop
  | next {item : Item} {later : List Item} {c : Channel} {p : Process}
      (hitems : items = item :: later) (h : c.Awaits p later) :
      Fetched items (.item (item.frame, item.descriptor), c, p)
  | interrupted {c : Channel} {p : Process} (h : c.Awaits p items) :
      Fetched items (.failed .interrupted, c, p)
  | lacks {r : Reception (Frame × Option Descriptor)} {c : Channel} {p : Process}
      (hitem : ∀ value, r ≠ .item value) (hr : r ≠ .failed .interrupted) :
      Fetched items (r, c, p)

/-- What a channel has an answer to without a read. -/
theorem Awaits.settled (h : c.Awaits p items) {answer : Reception (Frame × Option Descriptor)}
    (hsettled : c.settled? = some (answer, c')) : Fetched items (answer, c', p) := by
  have hinterrupted := ne_interrupted_of_settled hsettled
  cases settles_iff.1 hsettled with
  | refused | missing | atEnd | cutShort => exact .lacks (fun _ h => nomatch h) hinterrupted
  | plain hdec hflag =>
    obtain ⟨item, later, hitems, rfl, descriptors, hheld, hlater⟩ := h.first hdec
    have hnone : item.descriptor = none := by
      rwa [Item.flagged_frame, Option.isSome_eq_false_iff, Option.isNone_iff_eq_none] at hflag
    rw [hnone] at hheld
    obtain rfl : c.descriptors = descriptors := hheld
    rw [← hnone]
    exact .next hitems hlater
  | @flagged _ _ d ds hdec hflag hd =>
    obtain ⟨item, later, hitems, rfl, descriptors, hheld, hlater⟩ := h.first hdec
    rw [Item.flagged_frame] at hflag
    obtain ⟨d', hsome⟩ := Option.isSome_iff_exists.1 hflag
    rw [hsome, hd] at hheld
    injection hheld with hfirst hrest
    subst hfirst hrest
    rw [← hsome]
    exact .next hitems hlater

/-- **What a read draws is held.** -/
theorem Awaits.absorb (h : c.Awaits p items) {r : Reading} {failure : Option ChannelError}
    (hread : p.read chunkSize = (some r, p')) (habsorb : c.absorb r = (failure, c')) :
    c'.Awaits p' items := by
  obtain ⟨held, back, hbuffer, hdescriptors, hparts, hoffers⟩ := h.parts
  have hdraws := Process.draws_read hoffers (show chunkSize ≠ 0 by decide)
  rw [hread] at hdraws
  cases hdraws with
  | @front front back _ hne hs hoffers' =>
    rw [absorb_data (by rwa [Ne, Stream.octets_eq_nil])] at habsorb
    cases habsorb
    refine ⟨h.sendable, held ++ front, back, ?_, ?_, ?_, hoffers'⟩
    · rw [Stream.octets_append, hbuffer]
    · rw [Stream.descriptors_append, hdescriptors]
    · rw [← hparts, hs, List.append_assoc]
  | nothing hnothing hoffers' =>
    obtain ⟨hoctets, hnone⟩ := hnothing r rfl
    have hsame : c'.buffer = c.buffer ∧ c'.descriptors = c.descriptors := by
      cases failure with
      | some e =>
        obtain ⟨rfl, -⟩ := absorb_eq_some habsorb
        exact ⟨rfl, by rw [hnone, List.append_nil]⟩
      | none =>
        rcases absorb_eq_none habsorb with ⟨xs, hxs, hne, -⟩ | ⟨-, rfl⟩ | ⟨-, -, rfl⟩
        · rw [Reading.octets, hxs] at hoctets
          exact absurd hoctets hne
        · exact ⟨rfl, by rw [hnone, List.append_nil]⟩
        · exact ⟨rfl, by rw [hnone, List.append_nil]⟩
    exact ⟨h.sendable, held, back, hbuffer.trans hsame.1.symm, hdescriptors.trans hsame.2.symm,
      hparts, hoffers'⟩

/-- **A call that brings a frame brings the next one**, with its own descriptor. -/
theorem Fetches.fetched {out : Reception (Frame × Option Descriptor) × Channel × Process}
    (hf : Fetches Process.transport c p out) (h : c.Awaits p items) : Fetched items out := by
  induction hf with
  | settled hsettled => exact h.settled hsettled
  | dry => exact .lacks (fun _ h => nomatch h) fun h => nomatch h
  | @broken c c' p p' r e _ hread habsorb =>
    have hawaits := h.absorb hread habsorb
    by_cases he : e = .interrupted
    · subst he
      exact .interrupted hawaits
    · exact .lacks (fun _ h => nomatch h) fun h => he (Reception.failed.inj h)
  | onward _ hread habsorb _ ih => exact ih (h.absorb hread habsorb)

end Channel

end Overseer
