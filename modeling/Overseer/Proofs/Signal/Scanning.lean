import Overseer.Proofs.Signal.Bindings

/-!
# Marks are taken up one by one

To take up the marks is to scan them: the scan looks at one signal after the other, in the order of
their numbers, and takes up its mark in a step of its own. Signals may be delivered between any two
of these steps, before or behind the place that the scan has come to, and a signal that is delivered
twice is marked once.

What happens to the marks is told by `Tick`s, in the order in which it happens
(`SignalState.ticks`), and `Tick.Runs` says what they do: a mark stays until it is reported or all
are cleared (`Tick.Runs.marked`), and it is there only if the signal was delivered
(`Tick.Runs.delivered`). A scan that is complete looks at every signal (`whole_ticks`). So no
delivery is lost, and none is reported twice (`delivered_then_reported`).
-/

namespace Overseer

namespace SignalState

/-! ## What happens to the marks -/

/-- One step of what happens to the marks of a process. -/
inductive Tick where
  /-- A signal that is deferred is delivered. -/
  | delivered (signal : Signal)
  /-- A scan begins. -/
  | begins
  /-- The scan finds a signal marked; it takes up the mark and will report the signal. -/
  | reported (signal : Signal)
  /-- The scan finds a signal unmarked. -/
  | passed (signal : Signal)
  /-- The scan has looked at all signals. -/
  | ends
  /-- All marks are forgotten. -/
  | cleared
  deriving DecidableEq

/-- The signal that a tick reports. -/
def Tick.report? : Tick → Option Signal
  | reported signal => some signal
  | delivered _ | begins | passed _ | ends | cleared => none

/-- What happens to the signals of a process, as far as their marks have to do with it. -/
inductive Occasion where
  /-- A signal is delivered. -/
  | deliver (signal : Signal)
  /-- The marks are taken up. Before the scan looks at a signal those of `arrivals` are
  delivered. -/
  | scan (arrivals : Signal → List Signal)
  /-- A manager is installed. -/
  | install (plan : List (Signal × Disposition))
  /-- A manager puts back what it remembers. -/
  | restore (m : SignalManager)

/-- Those of some signals whose delivery marks them. -/
def deferred (s : SignalState) (signals : List Signal) : List Signal :=
  signals.filter fun signal => s.dispositions signal = .deferred

/-- Takes up all marks, lowest number first, while signals arrive. -/
def takePendingAmid (s : SignalState) (arrivals : Signal → List Signal) :
    List Signal × SignalState :=
  let found := scan (fun signal => s.deferred (arrivals signal)) Signal.all s.pending
  (found.1, { s with pending := found.2 })

/-- The signals after an occasion. -/
def after (s : SignalState) : Occasion → SignalState
  | .deliver signal => (s.deliver signal).2
  | .scan arrivals => (s.takePendingAmid arrivals).2
  | .install plan => (SignalManager.install plan s).2
  | .restore m => (m.restore s).2

/-- What the scans among some occasions report, scan by scan. -/
def answers : List Occasion → SignalState → List (List Signal)
  | [], _ => []
  | .scan arrivals :: occasions, s =>
    (s.takePendingAmid arrivals).1 :: answers occasions (s.after (.scan arrivals))
  | o :: occasions, s => answers occasions (s.after o)

/-- The steps of a scan of some signals. -/
def scanTicks (arrivals : Signal → List Signal) : List Signal → (Signal → Bool) → List Tick
  | [], _ => []
  | signal :: signals, pending =>
    let pending := (arrivals signal).foldl (fun pending s => mark pending s true) pending
    (arrivals signal).map .delivered ++
      (if pending signal then .reported signal else .passed signal) ::
        scanTicks arrivals signals (mark pending signal false)

/-- The steps of one occasion. -/
def ticksOf (s : SignalState) : Occasion → List Tick
  | .deliver signal => (s.deferred [signal]).map .delivered
  | .scan arrivals =>
    .begins :: (scanTicks (fun signal => s.deferred (arrivals signal)) Signal.all s.pending ++
      [.ends])
  | .install _ => [.cleared]
  | .restore _ => []

/-- The steps of some occasions. -/
def ticks : List Occasion → SignalState → List Tick
  | [], _ => []
  | o :: occasions, s => s.ticksOf o ++ ticks occasions (s.after o)

/-- A scan that nothing disturbs is what a loop does. -/
theorem takePendingAmid_nothing (s : SignalState) :
    s.takePendingAmid (fun _ => []) = s.takePending := by
  unfold takePendingAmid takePending
  generalize hfound : scan (fun _ => []) Signal.all s.pending = found
  have hsame :
      scan (fun signal => s.deferred ((fun _ => []) signal)) Signal.all s.pending = found := hfound
  rw [hsame]

/-! ## What a tick does to the marks -/

/-- The marks before and after a tick. A signal is reported if it was marked, and passed if not. -/
inductive Tick.Does : (Signal → Bool) → Tick → (Signal → Bool) → Prop
  | delivered (pending : Signal → Bool) (signal : Signal) :
      Does pending (.delivered signal) (mark pending signal true)
  | begins (pending : Signal → Bool) : Does pending .begins pending
  | reported {pending : Signal → Bool} {signal : Signal} (h : pending signal = true) :
      Does pending (.reported signal) (mark pending signal false)
  | passed {pending : Signal → Bool} {signal : Signal} (h : pending signal = false) :
      Does pending (.passed signal) (mark pending signal false)
  | ends (pending : Signal → Bool) : Does pending .ends pending
  | cleared (pending : Signal → Bool) : Does pending .cleared fun _ => false

/-- The marks before and after some ticks. -/
inductive Tick.Runs : (Signal → Bool) → List Tick → (Signal → Bool) → Prop
  | nil (pending : Signal → Bool) : Runs pending [] pending
  | cons {tick : Tick} {ticks : List Tick} {pending pending' pending'' : Signal → Bool}
      (h : tick.Does pending pending') (hrest : Runs pending' ticks pending'') :
      Runs pending (tick :: ticks) pending''

variable {ticks ticks' : List Tick} {p p' : Signal → Bool} {signal : Signal}

theorem Tick.runs_append : Tick.Runs p (ticks ++ ticks') p' ↔
    ∃ between, Tick.Runs p ticks between ∧ Tick.Runs between ticks' p' := by
  induction ticks generalizing p with
  | nil =>
    constructor
    · exact fun h => ⟨p, .nil p, h⟩
    · rintro ⟨between, hnil, h⟩
      cases hnil
      exact h
  | cons tick ticks ih =>
    constructor
    · intro h
      cases h with
      | cons hfirst hrest =>
        obtain ⟨between, h, h'⟩ := ih.1 hrest
        exact ⟨between, .cons hfirst h, h'⟩
    · rintro ⟨between, h, h'⟩
      cases h with
      | cons hfirst hrest => exact .cons hfirst (ih.2 ⟨between, hrest, h'⟩)

/-- A tick that neither reports a signal nor clears all marks leaves the mark of the signal. -/
theorem Tick.Does.marked {tick : Tick} (h : tick.Does p p') (hp : p signal = true)
    (hreport : tick ≠ .reported signal) (hclear : tick ≠ .cleared) : p' signal = true := by
  cases h with
  | delivered =>
    rw [mark]
    split
    · rfl
    · exact hp
  | begins | ends => exact hp
  | reported hmarked =>
    rw [mark, if_neg]
    · exact hp
    · rintro rfl
      exact hreport rfl
  | passed hunmarked =>
    rw [mark, if_neg]
    · exact hp
    · rintro rfl
      cases hp.symm.trans hunmarked
  | cleared => exact absurd rfl hclear

/-- **A mark stays** until the signal is reported or all marks are cleared. -/
theorem Tick.Runs.marked (h : Tick.Runs p ticks p') (hp : p signal = true)
    (hreport : .reported signal ∉ ticks) (hclear : .cleared ∉ ticks) : p' signal = true := by
  induction h with
  | nil => exact hp
  | cons hfirst _ ih =>
    rw [List.mem_cons, not_or] at hreport hclear
    exact ih (hfirst.marked hp (Ne.symm hreport.1) (Ne.symm hclear.1)) hreport.2 hclear.2

/-- **A mark that is there** was there before, or the signal has been delivered. -/
theorem Tick.Runs.delivered (h : Tick.Runs p ticks p') (hp : p' signal = true) :
    p signal = true ∨ .delivered signal ∈ ticks := by
  induction h with
  | nil => exact .inl hp
  | cons hfirst _ ih =>
    obtain hmarked | hmem := ih hp
    · cases hfirst with
      | delivered =>
        rw [mark] at hmarked
        split at hmarked
        · next heq => exact .inr (heq ▸ List.mem_cons_self)
        · exact .inl hmarked
      | begins | ends => exact .inl hmarked
      | reported | passed =>
        rw [mark] at hmarked
        split at hmarked
        · cases hmarked
        · exact .inl hmarked
      | cleared => cases hmarked
    · exact .inr (List.mem_cons_of_mem _ hmem)

/-! ## What the occasions do -/

theorem runs_delivered (signals : List Signal) (p : Signal → Bool) :
    Tick.Runs p (signals.map .delivered) (signals.foldl (fun p s => mark p s true) p) := by
  induction signals generalizing p with
  | nil => exact .nil p
  | cons signal signals ih => exact .cons (.delivered p signal) (ih _)

theorem runs_scanTicks (arrivals : Signal → List Signal) (signals : List Signal)
    (p : Signal → Bool) :
    Tick.Runs p (scanTicks arrivals signals p) (scan arrivals signals p).2 := by
  induction signals generalizing p with
  | nil => exact .nil p
  | cons signal signals ih =>
    refine Tick.runs_append.2 ⟨_, runs_delivered (arrivals signal) p, .cons ?_ (ih _)⟩
    split
    · next hmarked => exact .reported hmarked
    · next hmarked => exact .passed (Bool.eq_false_iff.2 hmarked)

/-- Deliveries report nothing. -/
theorem filterMap_delivered (signals : List Signal) :
    (signals.map Tick.delivered).filterMap Tick.report? = [] := by
  rw [List.filterMap_map]
  exact List.filterMap_eq_nil_iff.2 fun _ _ => rfl

/-- The signals that a scan reports are those that its ticks report. -/
theorem filterMap_scanTicks (arrivals : Signal → List Signal) (signals : List Signal)
    (p : Signal → Bool) :
    (scanTicks arrivals signals p).filterMap Tick.report? = (scan arrivals signals p).1 := by
  induction signals generalizing p with
  | nil => rfl
  | cons signal signals ih =>
    rw [scanTicks, scan]
    simp only
    rw [List.filterMap_append, filterMap_delivered, List.nil_append]
    split
    · exact congrArg (signal :: ·) (ih _)
    · exact ih _

/-- A scan reports some of the signals it looks at, in their order. -/
theorem scan_sublist (arrivals : Signal → List Signal) (signals : List Signal)
    (p : Signal → Bool) : (scan arrivals signals p).1.Sublist signals := by
  induction signals generalizing p with
  | nil => exact .slnil
  | cons signal signals ih =>
    rw [scan]
    simp only
    split
    · exact (ih _).cons_cons signal
    · exact (ih _).cons signal

theorem restore_pending (m : SignalManager) (s : SignalState) :
    (m.restore s).2.pending = s.pending := by
  show (m.saved.reverse.foldl (fun s x => s.bind x.1 x.2) s).pending = _
  induction m.saved.reverse generalizing s with
  | nil => rfl
  | cons x saved ih => exact ih _

theorem runs_ticksOf (s : SignalState) (o : Occasion) :
    Tick.Runs s.pending (s.ticksOf o) (s.after o).pending := by
  cases o with
  | deliver signal =>
    show Tick.Runs s.pending ((s.deferred [signal]).map .delivered) (s.deliver signal).2.pending
    rw [deliver, deferred, List.filter_singleton]
    cases s.dispositions signal with
    | deferred => exact .cons (.delivered _ signal) (.nil _)
    | default | ignore | quit | foreign => exact .nil _
  | scan arrivals =>
    refine .cons (.begins _) (Tick.runs_append.2 ⟨_, runs_scanTicks _ _ _, ?_⟩)
    exact .cons (.ends _) (.nil _)
  | install plan =>
    have hclear : (SignalManager.install plan s).2.pending = fun _ => false :=
      congrArg SignalState.pending (SignalManager.install_snd plan s)
    show Tick.Runs s.pending [.cleared] (SignalManager.install plan s).2.pending
    rw [hclear]
    exact .cons (.cleared _) (.nil _)
  | restore m =>
    show Tick.Runs s.pending [] (m.restore s).2.pending
    rw [restore_pending]
    exact .nil _

theorem runs_ticks (occasions : List Occasion) (s : SignalState) :
    ∃ p, Tick.Runs s.pending (s.ticks occasions) p := by
  induction occasions generalizing s with
  | nil => exact ⟨_, .nil _⟩
  | cons o occasions ih =>
    obtain ⟨p, hrest⟩ := ih (s.after o)
    exact ⟨p, Tick.runs_append.2 ⟨_, runs_ticksOf s o, hrest⟩⟩

/-! ## Complete scans -/

/-- Whatever stands between the beginning of a scan and its end has a look at every signal. -/
def Whole (ticks : List Tick) : Prop :=
  ∀ before scan after, ticks = before ++ .begins :: (scan ++ .ends :: after) →
    ∀ signal, .reported signal ∈ scan ∨ .passed signal ∈ scan

/-- Ticks before which no scan begins do not matter. -/
theorem Whole.append (h : Whole ticks') (hbegins : .begins ∉ ticks) : Whole (ticks ++ ticks') := by
  induction ticks with
  | nil => exact h
  | cons tick ticks ih =>
    rw [List.mem_cons, not_or] at hbegins
    intro before scan after heq signal
    cases before with
    | nil =>
      rw [List.cons_append, List.nil_append] at heq
      exact absurd (List.cons.inj heq).1.symm hbegins.1
    | cons first before =>
      rw [List.cons_append, List.cons_append] at heq
      exact ih hbegins.2 before scan after (List.cons.inj heq).2 signal

/-- A scan that looks at every signal may stand before them. -/
theorem Whole.scan {body : List Tick} (h : Whole ticks) (hbegins : .begins ∉ body)
    (hends : .ends ∉ body) (hlooks : ∀ signal, .reported signal ∈ body ∨ .passed signal ∈ body) :
    Whole (.begins :: (body ++ .ends :: ticks)) := by
  intro before scan after heq signal
  cases before with
  | nil =>
    -- the first end behind the beginning is the one behind the body
    rw [List.nil_append, List.cons.injEq] at heq
    obtain ⟨rest, hscan, -⟩ | ⟨rest, hbody, hrest⟩ := List.append_eq_append_iff.1 heq.2
    · rw [hscan]
      exact (hlooks signal).imp (List.mem_append_left _) (List.mem_append_left _)
    · cases rest with
      | nil =>
        rw [List.append_nil] at hbody
        rw [← hbody]
        exact hlooks signal
      | cons tick rest =>
        rw [List.cons_append, List.cons.injEq] at hrest
        refine absurd ?_ hends
        rw [hbody, ← hrest.1]
        exact List.mem_append_right _ List.mem_cons_self
  | cons first before =>
    rw [List.cons_append, List.cons.injEq] at heq
    have hrest : Whole ((body ++ [.ends]) ++ ticks) := by
      refine h.append ?_
      rw [List.mem_append, List.mem_singleton, not_or]
      exact ⟨hbegins, nofun⟩
    rw [List.append_assoc, List.singleton_append] at hrest
    exact hrest before scan after heq.2 signal

/-- What a scan does in its steps: signals are delivered, and each signal is looked at. -/
theorem mem_scanTicks {arrivals : Signal → List Signal} {signals : List Signal} {tick : Tick}
    (h : tick ∈ scanTicks arrivals signals p) :
    (∃ signal, tick = .delivered signal) ∨ (∃ signal, tick = .reported signal) ∨
      ∃ signal, tick = .passed signal := by
  induction signals generalizing p with
  | nil => cases h
  | cons signal signals ih =>
    rw [scanTicks] at h
    rcases List.mem_append.1 h with h | h
    · obtain ⟨other, -, rfl⟩ := List.mem_map.1 h
      exact .inl ⟨other, rfl⟩
    · rcases List.mem_cons.1 h with rfl | h
      · split
        · exact .inr (.inl ⟨signal, rfl⟩)
        · exact .inr (.inr ⟨signal, rfl⟩)
      · exact ih h

theorem looked_at (arrivals : Signal → List Signal) {signals : List Signal}
    (h : signal ∈ signals) :
    .reported signal ∈ scanTicks arrivals signals p ∨
      .passed signal ∈ scanTicks arrivals signals p := by
  induction signals generalizing p with
  | nil => cases h
  | cons other signals ih =>
    rw [scanTicks, List.mem_append, List.mem_append]
    rcases List.mem_cons.1 h with rfl | h
    · split
      · exact .inl (.inr List.mem_cons_self)
      · exact .inr (.inr List.mem_cons_self)
    · exact (ih h).imp (fun h => .inr (List.mem_cons_of_mem _ h))
        fun h => .inr (List.mem_cons_of_mem _ h)

theorem whole_ticks (occasions : List Occasion) (s : SignalState) : Whole (s.ticks occasions) := by
  induction occasions generalizing s with
  | nil =>
    intro before scan after heq
    cases before <;> cases heq
  | cons o occasions ih =>
    have hrest := ih (s.after o)
    cases o with
    | deliver signal =>
      refine hrest.append fun hmem => ?_
      obtain ⟨other, -, hother⟩ := List.mem_map.1 hmem
      cases hother
    | scan arrivals =>
      have hmem {tick : Tick} (h : tick ∈ scanTicks (fun signal => s.deferred (arrivals signal))
          Signal.all s.pending) : tick ≠ .begins ∧ tick ≠ .ends := by
        obtain ⟨signal, rfl⟩ | ⟨signal, rfl⟩ | ⟨signal, rfl⟩ := mem_scanTicks h
        all_goals exact ⟨nofun, nofun⟩
      have hwhole := hrest.scan (fun h => (hmem h).1 rfl) (fun h => (hmem h).2 rfl)
        fun signal => looked_at _ signal.mem_all
      show Whole ((.begins :: (_ ++ [.ends])) ++ _)
      rw [List.cons_append, List.append_assoc, List.singleton_append]
      exact hwhole
    | install plan => exact hrest.append (by simp [ticksOf])
    | restore m => exact hrest.append (by simp [ticksOf])

/-! ## Deliveries and reports -/

theorem filterMap_ticksOf_scan (s : SignalState) (arrivals : Signal → List Signal) :
    (s.ticksOf (.scan arrivals)).filterMap Tick.report? = (s.takePendingAmid arrivals).1 := by
  show (Tick.begins :: (_ ++ [Tick.ends])).filterMap Tick.report? = _
  rw [List.filterMap_cons_none rfl, List.filterMap_append, filterMap_scanTicks]
  exact List.append_nil _

/-- What the ticks report is what the scans answer. -/
theorem filterMap_ticks (occasions : List Occasion) (s : SignalState) :
    (s.ticks occasions).filterMap Tick.report? = (s.answers occasions).flatten := by
  induction occasions generalizing s with
  | nil => rfl
  | cons o occasions ih =>
    rw [ticks, List.filterMap_append, ih]
    cases o with
    | scan arrivals => exact congrArg (· ++ _) (filterMap_ticksOf_scan s arrivals)
    | deliver signal => exact congrArg (· ++ _) (filterMap_delivered _)
    | install | restore => rfl

theorem pairwise_of_mem_answers {occasions : List Occasion} {s : SignalState}
    {found : List Signal} (h : found ∈ s.answers occasions) :
    found.Pairwise (·.number < ·.number) := by
  induction occasions generalizing s with
  | nil => cases h
  | cons o occasions ih =>
    cases o with
    | scan arrivals =>
      rcases List.mem_cons.1 h with rfl | h
      · exact Signal.all_pairwise.sublist (scan_sublist _ _ _)
      · exact ih h
    | deliver | install | restore => exact ih h

/-- A signal that is passed although it was marked has been reported before, unless all marks were
cleared. -/
theorem Tick.Runs.reported (h : Tick.Runs p (ticks ++ .passed signal :: ticks') p')
    (hp : p signal = true) (hclear : .cleared ∉ ticks) : .reported signal ∈ ticks := by
  obtain ⟨between, hruns, hrest⟩ := runs_append.1 h
  by_contra hreport
  have hmarked := hruns.marked hp hreport hclear
  cases hrest with
  | cons hpassed _ =>
    cases hpassed with
    | passed hunmarked => cases hmarked.symm.trans hunmarked

/-- **Each report comes from a delivery** since the report before, or from a mark of the
beginning. -/
theorem delivered_of_reported {p₀ : Signal → Bool}
    (h : Tick.Runs p₀ (ticks ++ .reported signal :: ticks') p') :
    p₀ signal = true ∨ .delivered signal ∈ ticks := by
  obtain ⟨between, hruns, hrest⟩ := Tick.runs_append.1 h
  cases hrest with
  | cons hreported _ =>
    cases hreported with
    | reported hmarked => exact hruns.delivered hmarked

/-- **No delivery is lost, and none is reported twice**, whatever happens to the signals of a
process: deliveries to signals that are deferred or not, scans with deliveries between any two of
their steps, managers that are installed and put back what they remember.

Each scan answers with the signals it reports, in the order of their numbers and none twice. Once a
signal that is deferred has been delivered, it is reported before the end of the next complete scan,
by this one or by the one that is going on, unless a manager that is installed clears all marks.
Between two reports of a signal it has been delivered, and before the first one as well if it was
not marked from the beginning. -/
theorem delivered_then_reported (s : SignalState) (occasions : List Occasion) :
    (∀ found ∈ s.answers occasions, found.Pairwise (·.number < ·.number)) ∧
    (s.ticks occasions).filterMap Tick.report? = (s.answers occasions).flatten ∧
    (∀ before between scan after signal,
      s.ticks occasions =
        before ++ .delivered signal :: (between ++ .begins :: (scan ++ .ends :: after)) →
      .cleared ∉ between ++ scan → .reported signal ∈ between ++ scan) ∧
    (∀ before between after signal,
      s.ticks occasions =
        before ++ .reported signal :: (between ++ .reported signal :: after) →
      .delivered signal ∈ between) ∧
    ∀ before after signal, s.ticks occasions = before ++ .reported signal :: after →
      s.pending signal = true ∨ .delivered signal ∈ before := by
  obtain ⟨p, hruns⟩ := runs_ticks occasions s
  refine ⟨fun found => pairwise_of_mem_answers, filterMap_ticks occasions s,
    fun before between scan after signal heq hclear => ?_,
    fun before between after signal heq => ?_, fun before after signal heq => ?_⟩
  · obtain hreported | hpassed :=
      whole_ticks occasions s (before ++ .delivered signal :: between) scan after
        (by rw [heq, List.append_assoc, List.cons_append]) signal
    · exact List.mem_append_right _ hreported
    · -- the scan finds the signal unmarked, so it was reported since it was delivered
      obtain ⟨front, rest, rfl⟩ := List.append_of_mem hpassed
      rw [heq] at hruns
      obtain ⟨p₁, -, hrest⟩ := Tick.runs_append.1 hruns
      cases hrest with
      | cons hdelivered hrest =>
        cases hdelivered with
        | delivered =>
          rw [List.append_assoc, ← List.cons_append, ← List.append_assoc] at hrest
          have hreported := hrest.reported (if_pos rfl) (by grind)
          grind
  · rw [heq] at hruns
    obtain ⟨p₁, -, hrest⟩ := Tick.runs_append.1 hruns
    cases hrest with
    | cons hreported hrest =>
      cases hreported with
      | reported hmarked =>
        refine (delivered_of_reported hrest).resolve_left ?_
        rw [mark, if_pos rfl]
        exact Bool.false_ne_true
  · rw [heq] at hruns
    exact delivered_of_reported hruns

/-- Two signals are deferred. -/
def twoDeferred : SignalState :=
  (SignalManager.install [(.usr1, .deferred), (.usr2, .deferred)] {}).2

/-- One of them is delivered; when the marks are taken up both are, just before the scan comes to
the higher one; then they are taken up once more. -/
def overtaken : List Occasion :=
  [.deliver .usr2, .scan fun signal => if signal = .usr2 then [.usr1, .usr2] else [],
    .scan fun _ => []]

/-- The higher signal is reported once, by the scan that is going on; the lower one comes too late
for it and is reported by the next one. -/
theorem delivered_then_reported_behind_the_scan :
    twoDeferred.answers overtaken = [[.usr2], [.usr1]] ∧
      let ticks := twoDeferred.ticks overtaken
      ticks[13]? = some (.delivered .usr1) ∧
      .reported .usr1 ∉ (ticks.drop 14).take 22 ∧
      .reported .usr1 ∈ (ticks.drop 14).take 22 ++ (ticks.drop 37).take 31 := by
  obtain ⟨-, -, hreported, -⟩ := delivered_then_reported twoDeferred overtaken
  refine ⟨by decide +kernel, by decide +kernel, by decide +kernel, ?_⟩
  exact hreported ((twoDeferred.ticks overtaken).take 13) _ _
    ((twoDeferred.ticks overtaken).drop 69) .usr1 (by decide +kernel) (by decide +kernel)

end SignalState

end Overseer
