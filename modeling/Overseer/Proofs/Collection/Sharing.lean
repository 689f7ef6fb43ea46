import Overseer.Proofs.Collection.Accounts
import Mathlib.Data.List.Induction

/-!
# One server for a key

Callers who look the same key up share one server. Looking a key up is one section of a call, so
whatever comes between the calls, the first one to find a supervisor stores it and all others are
given its handle (`one_server_for_a_key`). What the section does is said once, by `Placing`: it
finds what is stored, or it stores a supervisor that runs, or it is refused one and leaves the
collection alone.

A call that is refused announces nothing of its own, and neither does one that panics because the
supervisor that it was refused could not be given up. What the factory has announced, and that the
server was about to be started, has been announced nevertheless (`refused_aloud`).
-/

namespace Overseer

variable {η σ : Type} (H : Host η)

namespace Supervisor

/-- What has been announced when a server could not be started: that it is about to be started,
unless that was done before. -/
theorem start_refused {s : Scene η σ} {e : SupervisorError} (h : (start H s).1 = .error e) :
    (start H s).2.events =
      if s.supervisor.life = .notStarted then
        s.events ++ [s.supervisor.signed { kind := .serverStarting }]
      else s.events := by
  split
  · next hlife =>
    rw [start, bind_run, get_run, hlife] at h ⊢
    simp only [bind_run, announce_run, onHost_run] at h ⊢
    generalize H.openLine s.host = answer at h ⊢
    obtain ⟨line, host⟩ := answer
    cases line with
    | error e => rfl
    | ok line =>
      simp only [bind_run, prepareFork_run] at h ⊢
      generalize s.supervisor.server.beforeFork {} s.supervisor.state = answer at h ⊢
      obtain ⟨keep, state⟩ := answer
      cases keep with
      | error e => rfl
      | ok keep =>
        simp only [forkOn, bind_run, get_run, onHost_run] at h ⊢
        generalize H.fork line _ host = answer at h ⊢
        obtain ⟨pid, host⟩ := answer
        cases pid with
        | error e => rfl
        | ok pid => cases h
  · next hlife => rw [start_of_born H hlife]

end Supervisor

namespace Collection

variable {key : String} {factory : Factory η σ} {s s' : Site η σ}

/-- What a caller is told of it, unless the call panics. -/
def Placement.answer? : Placement → Option (Except SupervisorError Handle)
  | found h | stored h => some (.ok h)
  | refused e => some (.error e)
  | panicked .. => none

/-! ## The section that looks a key up -/

/-- What is announced while a supervisor is refused: what the factory announces, and that the server
is about to be started, if that is tried and heard. -/
def refusalNews (factory : Factory η σ) (host : η) : List Event :=
  (factory host).2.1 ++
    match (factory host).1 with
    | .ok slot =>
      if slot.announces = true ∧ slot.supervisor.life = .notStarted then
        [slot.supervisor.signed { kind := .serverStarting }]
      else []
    | .error _ => []

/-- Nothing comes of a lookup: the factory has failed, or the start of a supervisor that it had not
started. -/
inductive Fails (factory : Factory η σ) (host : η) (e : SupervisorError) : Prop
  | toBuild (h : (factory host).1 = .error e)
  | toStart {slot : Slot σ} (hbuilt : (factory host).1 = .ok slot)
      (hidle : slot.supervisor.isStarted = false)
      (h : (Supervisor.start H { supervisor := slot.supervisor, host := (factory host).2.2 }).1 =
        .error e)

/-- What comes of giving up a supervisor that could not be started. -/
def givenUp (slot : Slot σ) (host : η) : Except Panic Unit :=
  let x := (Supervisor.start H { supervisor := slot.supervisor, host }).2
  (Supervisor.drop H { supervisor := x.supervisor, host := x.host }).1

/-- What comes of looking a key up, with a factory in case that nothing is stored. What is found is
found whatever the factory. -/
inductive Placing (key : String) (factory : Factory η σ) (s : Site η σ) :
    Placement → Site η σ → Prop
  /-- There is a supervisor under the key, and nothing happens. -/
  | finds {h : Handle} (hkey : s.collection.handle? key = some h) :
      Placing key factory s (.found h) s
  /-- The factory has built a supervisor, and it is stored and runs. -/
  | stores {slot : Slot σ} {s' : Site η σ} (hbuilt : (factory s.host).1 = .ok slot)
      (h : Stores key s s') : Placing key factory s (.stored s.size) s'
  /-- There is none to be had, and nothing is stored. -/
  | refuses {e : SupervisorError} {s' : Site η σ} (hkey : s.collection.handle? key = none)
      (h : Fails H factory s.host e) (hcollection : s'.collection = s.collection)
      (hevents : s'.events = s.events ++ refusalNews factory s.host) :
      Placing key factory s (.refused e) s'
  /-- Likewise, and it is a panic to give up the supervisor that could not be started. -/
  | panics {e : SupervisorError} {p : Panic} {slot : Slot σ} {s' : Site η σ}
      (hkey : s.collection.handle? key = none) (h : Fails H factory s.host e)
      (hbuilt : (factory s.host).1 = .ok slot)
      (hpanic : givenUp H slot (factory s.host).2.2 = .error p)
      (hcollection : s'.collection = s.collection)
      (hevents : s'.events = s.events ++ refusalNews factory s.host) :
      Placing key factory s (.panicked e p) s'

/-- A supervisor that cannot be made ready was not started, and its start has failed. -/
theorem setUp_refused {x : Scene η σ} {e : SupervisorError} (h : (setUp H x).1 = .error e) :
    x.supervisor.isStarted = false ∧ (Supervisor.start H x).1 = .error e ∧
      (setUp H x).2 = (Supervisor.start H x).2 := by
  rw [setUp, Supervisor.bind_run, Supervisor.get_run] at h ⊢
  cases hstarted : x.supervisor.isStarted with
  | true =>
    simp only [hstarted, if_true] at h
    cases h
  | false =>
    simp only [hstarted, if_false, Bool.false_eq_true, Supervisor.bind_run] at h ⊢
    cases hresult : (Supervisor.start H x).1 with
    | error e' =>
      rw [hresult] at h
      cases h
      exact ⟨trivial, rfl, rfl⟩
    | ok =>
      rw [hresult] at h
      cases h

theorem employ_apply {α : Type} (slot : Slot σ) (act : Act η σ α) (s : Site η σ) :
    Deed.employ slot act s =
      let out := act { supervisor := slot.supervisor, host := s.host }
      ((out.1, { slot with supervisor := out.2.supervisor }),
        { s with
          host := out.2.host
          events := if slot.announces then s.events ++ out.2.events else s.events }) := rfl

/-- To give a supervisor up changes nothing in the collection and is not announced. -/
theorem employ_drop (slot : Slot σ) (s : Site η σ) :
    (Deed.employ slot (Supervisor.drop H) s).2.collection = s.collection ∧
      (Deed.employ slot (Supervisor.drop H) s).2.events = s.events := by
  rw [employ_apply]
  simp only [Supervisor.drop_events, List.append_nil, ite_self, and_self]

/-- What is stored under a free key, while some other things happen. -/
theorem stores_of_free {slot : Slot σ} (hkey : s.collection.handle? key = none)
    (hcollection : s'.collection = (s.collection.store key slot).2)
    (hruns : slot.supervisor.life.stage = 1) : Stores key s s' := by
  have hdeal : Deal False {} s { added := [key] }
      { s' with collection := (s.collection.store key slot).2 } :=
    @stores_deals η σ False s { s' with collection := s.collection } key slot hkey rfl hruns nofun
  rw [← hcollection] at hdeal
  generalize hbefore : ({} : Debt) = d at hdeal
  generalize hafter : ({ added := [key] } : Debt) = d' at hdeal
  cases hdeal with
  | stores _ h _ =>
    cases hafter
    exact h
  | works => cases hbefore.trans hafter.symm
  | welcomes => cases hbefore
  | takes => cases congrArg Debt.added hafter
  | stops => cases hbefore
  | clears => cases hbefore

/-- **Looking a key up** does one of four things. -/
theorem place_placing (key : String) (factory : Factory η σ) (s : Site η σ) :
    Placing H key factory s (place H key factory s).1 (place H key factory s).2 := by
  rw [place, deed_bind, deed_get]
  cases hkey : s.collection.handle? key with
  | some h => exact .finds hkey
  | none =>
    simp only [deed_bind]
    rw [show Deed.build factory s = ((factory s.host).1, { s with
      host := (factory s.host).2.2
      events := s.events ++ (factory s.host).2.1 }) from rfl]
    simp only
    cases hbuilt : (factory s.host).1 with
    | error e =>
      refine .refuses hkey (.toBuild hbuilt) rfl ?_
      rw [refusalNews, hbuilt]
      exact congrArg _ (List.append_nil _).symm
    | ok slot =>
      simp only [deed_bind]
      rw [employ_apply]
      simp only
      have hruns := (setUp_onward H
        { supervisor := slot.supervisor, host := (factory s.host).2.2 }).2
      cases hset : (setUp H { supervisor := slot.supervisor, host := (factory s.host).2.2 }).1 with
      | ok _ => exact .stores hbuilt (stores_of_free hkey rfl (hruns hset))
      | error e =>
        obtain ⟨hidle, hstart, hsame⟩ := setUp_refused H hset
        have hfails : Fails H factory s.host e := .toStart hbuilt hidle hstart
        simp only [deed_bind, hsame]
        generalize hrefused : ({
          collection := s.collection
          host := (Supervisor.start H
            { supervisor := slot.supervisor, host := (factory s.host).2.2 }).2.host
          events := if slot.announces then _ else _ } : Site η σ) = s₂
        have hnews : s₂.events = s.events ++ refusalNews factory s.host := by
          rw [← hrefused, refusalNews, hbuilt]
          simp only [Supervisor.start_refused H hstart, List.nil_append]
          rw [← List.append_assoc]
          cases slot.announces with
          | false => simp
          | true => by_cases hlife : slot.supervisor.life = .notStarted <;> simp [hlife]
        have hgiven : (Deed.employ { slot with supervisor := (Supervisor.start H
            { supervisor := slot.supervisor, host := (factory s.host).2.2 }).2.supervisor }
              (Supervisor.drop H) s₂).1.1 = givenUp H slot (factory s.host).2.2 := by
          rw [← hrefused]
          rfl
        obtain ⟨hcollection, hevents⟩ := employ_drop H { slot with supervisor :=
          (Supervisor.start H
            { supervisor := slot.supervisor, host := (factory s.host).2.2 }).2.supervisor } s₂
        rw [hnews] at hevents
        have hcollection' := hcollection.trans (congrArg Site.collection hrefused.symm)
        simp only [hgiven]
        cases hpanic : givenUp H slot (factory s.host).2.2 with
        | ok => exact .refuses hkey hfails hcollection' hevents
        | error p => exact .panics hkey hfails hbuilt hpanic hcollection' hevents

theorem Stores.handle_eq (h : Stores key s s') : s'.collection.handle? key = some s.size := by
  have hfree : s.collection.entries.lookup key = none := by
    have hnone := h.free
    rwa [contains, handle?, Option.isSome_eq_false_iff, Option.isNone_iff_eq_none] at hnone
  rw [handle?, h.entries_eq, List.lookup_append, hfree]
  simp

/-- Behind what comes of looking a key up. -/
theorem Placing.handle_eq {placement : Placement} (h : Placing H key factory s placement s')
    {handle : Handle} (hanswer : placement.answer? = some (.ok handle)) :
    s'.collection.handle? key = some handle := by
  cases h with
  | finds hkey =>
    cases hanswer
    exact hkey
  | stores _ hstores =>
    cases hanswer
    exact hstores.handle_eq
  | refuses | panics => cases hanswer

/-! ## Lookups among other calls -/

/-- What a lookup does once the key was looked up. -/
def afterPlacing (key : String) : Placement → LongDeed η σ Answer
  | .refused e => .done (.handle (.error e))
  | .panicked e p => .wait (.panicked p) (.done (.handle (.error e)))
  | .found h =>
    .step (fun s => (touchUnlessLocked H h s).2) fun _ => .done (.handle (.ok h))
  | .stored h =>
    .step (fun s => (Deed.announce (({ kind := .serverAdded } : Event).withServer key) s).2)
      fun _ => .done (.handle (.ok h))

theorem lookupOrAdd_deed (key : String) (factory : Factory η σ) :
    (Call.lookupOrAdd key factory).deed H =
      .step (fun s => (place H key factory s).2) fun s =>
        afterPlacing H key (place H key factory s).1 := by
  show Activity.step _ _ = Activity.step _ _
  congr 1
  funext s
  show Activity.bind (match (place H key factory s).1 with
    | .refused e => _
    | .panicked e p => _
    | .found h => _
    | .stored h => _) _ = _
  cases (place H key factory s).1 <;> rfl

namespace Traffic

variable {t : Traffic η σ} {turn : Turn η σ} {turns before after : List (Turn η σ)}

/-- Nothing is taken out from under a key in some turns. -/
def Spares (key : String) : Traffic η σ → List (Turn η σ) → Prop
  | _, [] => True
  | t, turn :: turns =>
    (t.site.collection.handle? key = none ∨
      (t.take H turn).site.collection.handle? key = t.site.collection.handle? key) ∧
    Spares key (t.take H turn) turns

instance Spares.decide (key : String) :
    (t : Traffic η σ) → (turns : List (Turn η σ)) → Decidable (Spares H key t turns)
  | _, [] => .isTrue trivial
  | t, turn :: turns => @instDecidableAnd _ _ _ (Spares.decide key (t.take H turn) turns)

theorem play_append (t : Traffic η σ) (before after : List (Turn η σ)) :
    t.play H (before ++ after) = (t.play H before).play H after := List.foldl_append

theorem play_snoc (t : Traffic η σ) (turns : List (Turn η σ)) (turn : Turn η σ) :
    t.play H (turns ++ [turn]) = (t.play H turns).take H turn := play_append H t turns [turn]

theorem Spares.of_append (h : Spares H key t (before ++ after)) :
    Spares H key (t.play H before) after := by
  induction before generalizing t with
  | nil => exact h
  | cons turn before ih => exact ih h.2

theorem Spares.of_append_left (h : Spares H key t (before ++ after)) : Spares H key t before := by
  induction before generalizing t with
  | nil => trivial
  | cons turn before ih => exact ⟨h.1, ih h.2⟩

/-- **What is stored stays stored.** -/
theorem Spares.handle_eq (h : Spares H key t turns) {handle : Handle}
    (hkey : t.site.collection.handle? key = some handle) :
    (t.play H turns).site.collection.handle? key = some handle := by
  induction turns generalizing t with
  | nil => exact hkey
  | cons turn turns ih =>
    refine ih h.2 (h.1.elim (fun hnone => ?_) fun hsame => hsame.trans hkey)
    rw [hnone] at hkey
    cases hkey

/-- Where something was stored under a key, nothing is stored again. -/
theorem Spares.not_stores_again {middle : List (Turn η σ)} {s' : Site η σ}
    (h : Spares H key t (before ++ turn :: (middle ++ after)))
    (hstores : Stores key (t.play H before).site (t.play H (before ++ [turn])).site) :
    ¬Stores key (t.play H (before ++ turn :: middle)).site s' := by
  intro hagain
  rw [List.append_cons, play_append] at hagain
  rw [List.append_cons] at h
  have hstored := ((h.of_append H).of_append_left H).handle_eq H hstores.handle_eq
  have hfree := hagain.free
  rw [contains, hstored] at hfree
  cases hfree

/-- At one of some turns a call, which has done nothing before, looks a key up. -/
def PlacedIn (t : Traffic η σ) (turns : List (Turn η σ)) (i : Nat) (key : String)
    (factory : Factory η σ) (placement : Placement) : Prop :=
  ∃ before after, turns = before ++ .goOn i :: after ∧
    (t.play H before).calls[i]? =
      some ⟨.lookupOrAdd key factory, (Call.lookupOrAdd key factory).deed H⟩ ∧
    Placing H key factory (t.play H before).site placement
      (t.play H (before ++ [.goOn i])).site ∧
    (t.play H (before ++ [.goOn i])).calls[i]? =
      some ⟨.lookupOrAdd key factory, afterPlacing H key placement⟩

theorem PlacedIn.snoc {i : Nat} {placement : Placement}
    (h : PlacedIn H t turns i key factory placement) :
    PlacedIn H t (turns ++ [turn]) i key factory placement := by
  obtain ⟨before, after, rfl, hplaced⟩ := h
  exact ⟨before, after ++ [turn], by simp, hplaced⟩

/-- Where a lookup stands: it is to look the key up, or has done so, or it is over. -/
def Stands (t : Traffic η σ) (turns : List (Turn η σ)) (i : Nat) (key : String)
    (factory : Factory η σ) (rest : LongDeed η σ Answer) : Prop :=
  rest = (Call.lookupOrAdd key factory).deed H ∨
    ∃ placement, PlacedIn H t turns i key factory placement ∧
      (rest = afterPlacing H key placement ∨
        ∃ result, placement.answer? = some result ∧ rest = .done (.handle result))

theorem Stands.snoc {i : Nat} {rest : LongDeed η σ Answer}
    (h : Stands H t turns i key factory rest) :
    Stands H t (turns ++ [turn]) i key factory rest := by
  obtain h | ⟨placement, hplaced, hrest⟩ := h
  · exact .inl h
  · exact .inr ⟨placement, hplaced.snoc H, hrest⟩

/-- **A section of a lookup** looks the key up, or is the last one. -/
theorem Stands.goOn {i : Nat} {change : Site η σ → Site η σ}
    {next : Site η σ → LongDeed η σ Answer}
    (h : Stands H t turns i key factory (.step change next))
    (hcall : (t.play H turns).calls[i]? = some ⟨.lookupOrAdd key factory, .step change next⟩)
    (hsite : (t.play H (turns ++ [.goOn i])).site = change (t.play H turns).site)
    (hcall' : (t.play H (turns ++ [.goOn i])).calls[i]? =
      some ⟨.lookupOrAdd key factory, next (t.play H turns).site⟩) :
    Stands H t (turns ++ [.goOn i]) i key factory (next (t.play H turns).site) := by
  obtain hfirst | ⟨placement, hplaced, hrest⟩ := h
  · rw [hfirst] at hcall
    rw [lookupOrAdd_deed] at hfirst
    injection hfirst with hchange hnext
    rw [hnext] at hcall' ⊢
    refine .inr ⟨_, ⟨turns, [], rfl, hcall, ?_, hcall'⟩, .inl rfl⟩
    rw [hsite, hchange]
    exact place_placing H key factory _
  · refine .inr ⟨placement, hplaced.snoc H, .inr ?_⟩
    obtain hrest | hrest := hrest
    · cases placement with
      | refused | panicked => cases hrest
      | found handle | stored handle =>
        injection hrest with _ hnext
        exact ⟨_, rfl, congrFun hnext _⟩
    · obtain ⟨_, -, hrest⟩ := hrest
      cases hrest

/-- **Every lookup** that was begun in some turns looks the key up at one of them. -/
theorem stands_of_play (t : Traffic η σ) (turns : List (Turn η σ)) {i : Nat}
    {rest : LongDeed η σ Answer} (hbegun : t.calls.length ≤ i)
    (hcall : (t.play H turns).calls[i]? = some ⟨.lookupOrAdd key factory, rest⟩) :
    Stands H t turns i key factory rest := by
  induction turns using List.reverseRecOn generalizing rest with
  | nil =>
    rw [show t.play H [] = t from rfl, List.getElem?_eq_none hbegun] at hcall
    cases hcall
  | append_singleton turns turn ih =>
    have hplay := play_snoc H t turns turn
    cases turn with
    | begin call =>
      rw [hplay] at hcall
      obtain hold | hnew := getElem?_concat hcall
      · exact (ih hold).snoc H
      · cases hnew
        exact .inl rfl
    | host change =>
      rw [hplay] at hcall
      exact (ih hcall).snoc H
    | goOn j =>
      rw [take] at hplay
      cases hj : (t.play H turns).calls[j]? with
      | none =>
        rw [hj] at hplay
        rw [hplay] at hcall
        exact (ih hcall).snoc H
      | some c =>
        obtain ⟨call, old⟩ := c
        rw [hj] at hplay
        cases old with
        | done answer =>
          rw [hplay] at hcall
          exact (ih hcall).snoc H
        | step change next =>
          have hcall' := hcall
          rw [hplay] at hcall
          obtain ⟨rfl, hsame⟩ | ⟨hne, hold⟩ := getElem?_set_cases hcall
          · cases hsame
            exact (ih hj).goOn H hj (by rw [hplay]; rfl) hcall'
          · exact (ih hold).snoc H
        | wait what next =>
          simp only at hplay
          cases hgrant : Site.grant H what (t.play H turns).site with
          | none =>
            rw [hgrant] at hplay
            rw [hplay] at hcall
            exact (ih hcall).snoc H
          | some site =>
            rw [hgrant] at hplay
            rw [hplay] at hcall
            obtain ⟨rfl, hsame⟩ | ⟨hne, hold⟩ := getElem?_set_cases hcall
            · cases hsame
              -- a lookup does not wait, but for what never comes
              obtain hfirst | ⟨placement, -, hrest | ⟨_, -, hrest⟩⟩ := ih hj
              · cases hfirst
              · cases placement <;> cases hrest
                cases hgrant
              · cases hrest
            · exact (ih hold).snoc H

end Traffic

/-! ## Announcements -/

/-- One for each key that something is stored under. -/
def storedUnder (s : Site η σ) (key : String) : Nat := if s.collection.contains key then 1 else 0

theorem storedUnder_of_entries (h : s'.collection.entries = s.collection.entries) :
    storedUnder s' key = storedUnder s key := by
  rw [storedUnder, contains, handle?, h]
  rfl

/-- **What a section announces as added, or owes to,** it has stored, if nothing was taken out from
under the key. -/
theorem Deal.added {discreet : Prop} {d d' : Debt} (deal : Deal discreet d s d' s')
    (hdiscreet : discreet) (hannounces : s.collection.announces = true)
    (hspared : storedUnder s key ≤ storedUnder s' key) :
    s'.announced .serverAdded key + d'.added.count key + storedUnder s key =
      s.announced .serverAdded key + d.added.count key + storedUnder s' key := by
  have hhush (h : Hushed s s') :
      s'.announced .serverAdded key = s.announced .serverAdded key := h.announced_eq rfl key
  cases deal with
  | works h => rw [hhush (h.hushed hdiscreet), storedUnder_of_entries h.entries_eq]
  | stores k h hhushed =>
    rw [hhush (hhushed hdiscreet)]
    by_cases hk : k = key
    · subst hk
      have hnew : s'.collection.contains k = true := by
        rw [contains_iff, h.entries_eq]
        simp
      simp [storedUnder, h.free, hnew]
    · have hmem : s'.collection.contains key = s.collection.contains key := by
        rw [Bool.eq_iff_iff, contains_iff, contains_iff, h.entries_eq]
        simp [Ne.symm hk]
      simp [storedUnder, hmem, hk]
  | welcomes k h =>
    obtain ⟨e, hevents, hkind, hserver⟩ := h.news hannounces
    have hk : e.kind = .serverAdded := List.mem_singleton.1 hkind
    rw [announced_snoc hevents, hk, hserver, storedUnder_of_entries (by rw [h.collection_eq])]
    simp [List.count_singleton]
  | takes p h =>
    have hle : storedUnder s' key ≤ storedUnder s key := by
      simp only [storedUnder, contains_iff, h.entries_eq]
      split
      · next hmem =>
        exact Nat.le_of_eq (if_pos ((List.filter_sublist.map _).subset hmem)).symm
      · exact Nat.zero_le _
    rw [show s'.announced .serverAdded key = s.announced .serverAdded key by
      rw [Site.announced, h.events_eq, Site.announced]]
    show _ + [].count key + _ = _ + [].count key + _
    omega
  | stops k h hworks hstopped =>
    rw [hhush (hworks.hushed hdiscreet), storedUnder_of_entries hworks.entries_eq]
  | clears k h =>
    obtain ⟨e, hevents, hkind, hserver⟩ := h.news hannounces
    rw [announced_snoc hevents, storedUnder_of_entries (by rw [h.collection_eq])]
    obtain hk | hk := List.mem_pair.1 hkind <;> simp [hk]

theorem storedUnder_le {t : Traffic η σ} {turn : Turn η σ}
    (h : t.site.collection.handle? key = none ∨
      (t.take H turn).site.collection.handle? key = t.site.collection.handle? key) :
    storedUnder t.site key ≤ storedUnder (t.take H turn).site key := by
  rw [storedUnder, storedUnder, contains, contains]
  obtain hnone | hsame := h
  · rw [hnone]
    exact Nat.zero_le _
  · exact Nat.le_of_eq (by rw [hsame])

/-- How often a server was announced as added under a key, or is to be by the calls in progress. -/
def promised (t : Traffic η σ) (accounts : List (Account η σ)) (key : String) : Nat :=
  t.site.announced .serverAdded key + (accounts.map fun a => a.debt.added.count key).sum

namespace Ledger

variable {t : Traffic η σ} {accounts : List (Account η σ)} {turns : List (Turn η σ)}

/-- Once no call is in progress, nothing is to be announced any more. -/
theorem promised_of_quiet (l : Ledger discreet t accounts) (hquiet : t.Quiet) :
    promised t accounts key = t.site.announced .serverAdded key := by
  refine Nat.add_eq_left.2 (List.sum_eq_zero_iff_forall_eq_nat.2 (List.forall_mem_map.2 ?_))
  intro a ha
  obtain ⟨i, hi⟩ := List.getElem?_of_mem ha
  obtain ⟨hadded, -⟩ := l.paid hi (hquiet a.ongoing (l.mem_calls hi))
  rw [hadded, List.count_nil]

theorem take_announces (l : Ledger discreet t accounts) (turn : Turn η σ)
    (hdiscreet : ∀ call, turn = .begin call → discreet → call.Discreet) :
    (t.take H turn).site.collection.announces = t.site.collection.announces := by
  obtain ⟨-, -, ⟨hcollection, -⟩ | ⟨i, a, c, d, -, -, deal⟩⟩ := l.take_cases H turn hdiscreet
  · rw [hcollection]
  · exact deal.announces_eq

/-- **A turn** under which nothing is taken out from under a key promises as many servers there as
it stores. -/
theorem take_promised (l : Ledger True t accounts) (turn : Turn η σ)
    (hdiscreet : ∀ call, turn = .begin call → call.Discreet)
    (hannounces : t.site.collection.announces = true)
    (hspared : storedUnder t.site key ≤ storedUnder (t.take H turn).site key) :
    ∃ accounts', Ledger True (t.take H turn) accounts' ∧
      promised (t.take H turn) accounts' key + storedUnder t.site key =
        promised t accounts key + storedUnder (t.take H turn).site key := by
  obtain ⟨accounts', l', ⟨hcollection, hevents, begun, rfl, hnew⟩ | ⟨i, a, c, d, ha, rfl, deal⟩⟩ :=
    l.take_cases H turn fun call hcall _ => hdiscreet call hcall
  · refine ⟨_, l', ?_⟩
    have hnothing : (begun.map fun a => a.debt.added.count key).sum = 0 :=
      List.sum_eq_zero_iff_forall_eq_nat.2 (List.forall_mem_map.2 fun a ha => by simp [hnew a ha])
    rw [promised, promised, Site.announced, hevents, ← Site.announced, List.map_append,
      List.sum_append, hnothing, storedUnder_of_entries (by rw [hcollection])]
    rfl
  · refine ⟨_, l', ?_⟩
    have hdeal := deal.added trivial hannounces hspared
    have hset := sum_map_set (fun a : Account η σ => a.debt.added.count key) ha ⟨c, d⟩
    simp only [promised] at hdeal hset ⊢
    omega

/-- **In some turns** that leave alone what is stored under a key, as many servers are promised
there as are stored. -/
theorem play_promised (l : Ledger True t accounts)
    (hdiscreet : ∀ call, .begin call ∈ turns → call.Discreet)
    (hannounces : t.site.collection.announces = true) (hspares : t.Spares H key turns) :
    ∃ accounts', Ledger True (t.play H turns) accounts' ∧
      promised (t.play H turns) accounts' key + storedUnder t.site key =
        promised t accounts key + storedUnder (t.play H turns).site key := by
  induction turns generalizing t accounts with
  | nil => exact ⟨accounts, l, rfl⟩
  | cons turn turns ih =>
    have hnow : ∀ call, turn = .begin call → call.Discreet := fun call hcall =>
      hdiscreet call (hcall ▸ List.mem_cons_self)
    obtain ⟨accounts₁, l₁, hturn⟩ :=
      l.take_promised H turn hnow hannounces (storedUnder_le H hspares.1)
    obtain ⟨accounts₂, l₂, hrest⟩ :=
      ih l₁ (fun call hcall => hdiscreet call (List.mem_cons_of_mem _ hcall))
        ((l.take_announces H turn fun call hcall _ => hnow call hcall).trans hannounces) hspares.2
    refine ⟨accounts₂, l₂, ?_⟩
    rw [Traffic.play, List.foldl_cons, ← Traffic.play]
    omega

theorem play_announces (l : Ledger discreet t accounts)
    (hdiscreet : ∀ call, .begin call ∈ turns → discreet → call.Discreet) :
    (t.play H turns).site.collection.announces = t.site.collection.announces := by
  induction turns generalizing t accounts with
  | nil => rfl
  | cons turn turns ih =>
    have hnow : ∀ call, turn = .begin call → discreet → call.Discreet := fun call hcall =>
      hdiscreet call (hcall ▸ List.mem_cons_self)
    obtain ⟨accounts', l'⟩ := l.take H turn hnow
    exact (ih l' fun call hcall => hdiscreet call (List.mem_cons_of_mem _ hcall)).trans
      (l.take_announces H turn hnow)

end Ledger

/-! ## Sharing -/

/-- Those who look a key up share one server, in some turns. -/
structure Traffic.Shares (key : String) (t : Traffic η σ) (turns : List (Turn η σ)) : Prop where
  /-- At any time there is nothing under the key, or what there is in the end. -/
  handle_eq : ∀ before after, turns = before ++ after →
    (t.play H before).site.collection.handle? key = none ∨
      (t.play H before).site.collection.handle? key =
        (t.play H turns).site.collection.handle? key
  /-- It is stored at one turn. -/
  stores_once : ∀ before turn after before' turn' after',
    turns = before ++ turn :: after → turns = before' ++ turn' :: after' →
    Stores key (t.play H before).site (t.play H (before ++ [turn])).site →
    Stores key (t.play H before').site (t.play H (before' ++ [turn'])).site →
    before.length = before'.length
  /-- Each lookup that was begun in these turns and is over has looked the key up at one of them,
  answers what came of it, and that is the one server there is, or an error. -/
  answer_eq : ∀ i factory result, t.calls.length ≤ i →
    (t.play H turns).calls[i]? = some ⟨.lookupOrAdd key factory, .done (.handle result)⟩ →
    (∃ placement, PlacedIn H t turns i key factory placement ∧ placement.answer? = some result) ∧
      ∀ h, result = .ok h → (t.play H turns).site.collection.handle? key = some h
  /-- Each one that has panicked has looked the key up likewise, was refused, and panicked when it
  gave up what it had built. -/
  panicked_eq : ∀ i factory p next, t.calls.length ≤ i →
    (t.play H turns).calls[i]? = some ⟨.lookupOrAdd key factory, .wait (.panicked p) next⟩ →
    ∃ e, PlacedIn H t turns i key factory (.panicked e p)

/-- That it was added is announced at most once, not at all if it was there before, and not later
than the last call is over. -/
def Traffic.AnnouncesOnce (key : String) (t t' : Traffic η σ) : Prop :=
  t'.site.announced .serverAdded key + storedUnder t.site key ≤
      t.site.announced .serverAdded key + storedUnder t'.site key ∧
    (t'.Quiet →
      t'.site.announced .serverAdded key + storedUnder t.site key =
        t.site.announced .serverAdded key + storedUnder t'.site key)

/-- **Looking up concurrently.** Whatever has happened to a collection, and whatever else its
callers do: while nothing is taken out from under a key, those who look it up share one server,
which is announced once. -/
theorem one_server_for_a_key (announces : Bool) (host : η) (past turns : List (Turn η σ))
    (key : String)
    (hspares : ((Traffic.opening announces host).play H past).Spares H key turns) :
    let t := (Traffic.opening announces host : Traffic η σ).play H past
    t.Shares H key turns ∧
      (announces = true → t.Quiet → (∀ call, .begin call ∈ past ++ turns → call.Discreet) →
        t.AnnouncesOnce key (t.play H turns)) := by
  intro t
  refine ⟨⟨?_, ?_, ?_, ?_⟩, ?_⟩
  case refine_1 =>
    rintro before after rfl
    cases hkey : (t.play H before).site.collection.handle? key with
    | none => exact .inl rfl
    | some h =>
      rw [Traffic.play_append]
      exact .inr ((hspares.of_append H).handle_eq H hkey).symm
  case refine_2 =>
    rintro before turn after before' turn' after' rfl hturns hstores hstores'
    obtain ⟨middle, rfl, hafter⟩ | ⟨middle, rfl, hafter⟩ := List.append_eq_append_iff.1 hturns
    · cases middle with
      | nil => simp
      | cons x middle =>
        cases hafter
        exact absurd hstores' (hspares.not_stores_again H hstores)
    · cases middle with
      | nil => simp
      | cons x middle =>
        cases hafter
        rw [List.append_assoc] at hspares
        exact absurd hstores (hspares.not_stores_again H hstores')
  case refine_3 =>
    intro i factory result hbegun hcall
    obtain hfirst | ⟨placement, hplaced, hrest⟩ := Traffic.stands_of_play H t turns hbegun hcall
    · cases hfirst
    · have hanswer : placement.answer? = some result := by
        obtain hrest | ⟨_, hanswer, hrest⟩ := hrest
        · cases placement <;> cases hrest
          rfl
        · cases hrest
          exact hanswer
      refine ⟨⟨placement, hplaced, hanswer⟩, fun h hresult => ?_⟩
      obtain ⟨before, after, rfl, -, hplacing, -⟩ := hplaced
      rw [List.append_cons] at hspares ⊢
      rw [Traffic.play_append]
      rw [hresult] at hanswer
      exact (hspares.of_append H).handle_eq H (hplacing.handle_eq H hanswer)
  case refine_4 =>
    intro i factory p next hbegun hcall
    obtain hfirst | ⟨placement, hplaced, hrest | ⟨_, -, hrest⟩⟩ :=
      Traffic.stands_of_play H t turns hbegun hcall
    · cases hfirst
    · cases placement <;> cases hrest
      exact ⟨_, hplaced⟩
    · cases hrest
  case refine_5 =>
    intro hannounces hquiet hdiscreet
    obtain ⟨accounts, l⟩ := (Ledger.opening announces host).play H past fun call hcall _ =>
      hdiscreet call (List.mem_append_left _ hcall)
    have hhears : t.site.collection.announces = true :=
      ((Ledger.opening announces host).play_announces H fun _ _ (h : False) => h.elim).trans
        hannounces
    obtain ⟨accounts', l', hpromised⟩ :=
      l.play_promised H (fun call hcall => hdiscreet call (List.mem_append_right _ hcall)) hhears
        hspares
    rw [l.promised_of_quiet hquiet] at hpromised
    refine ⟨?_, fun hquiet' => ?_⟩
    · rw [← hpromised]
      exact Nat.add_le_add_right (Nat.le_add_right _ _) _
    · rwa [l'.promised_of_quiet hquiet'] at hpromised

/-- Refuses to be forked. -/
def reluctant : Server Unit where
  name _ := "idle"
  beforeFork _ s := (.error (.hook "idle" "refused"), s)

/-- Builds a supervisor of a server that refuses to be forked. -/
def buildRefusing : Factory Unit Unit := fun host =>
  (.ok { supervisor := .ofServer reluctant () {} .origin }, [], host)

/-- Three callers look a key up, before any of them has been answered, and the first is refused. -/
def raced : List (Turn Unit Unit) :=
  [.begin (.lookupOrAdd "a" buildRefusing), .begin (.lookupOrAdd "a" buildIdle),
    .begin (.lookupOrAdd "a" buildIdle), .goOn 0, .goOn 1, .goOn 2, .goOn 1, .goOn 2]

theorem one_server_for_a_key_raced :
    let t := (Traffic.opening true ()).play obliging raced
    (∃ placement,
      Traffic.PlacedIn obliging (.opening true ()) raced 0 "a" buildRefusing placement ∧
        placement.answer? = some (.error (.hook "idle" "refused"))) ∧
      t.site.collection.handle? "a" = some 0 ∧ t.site.announced .serverAdded "a" = 1 := by
  have hspares : Traffic.Spares obliging "a" (.opening true ()) raced := by
    decide +kernel
  obtain ⟨hshares, honce⟩ := one_server_for_a_key obliging true () [] raced "a" hspares
  have hquiet : ((Traffic.opening true ()).play obliging raced).Quiet := by
    rw [Traffic.Quiet]
    decide +kernel
  obtain ⟨⟨placement, hplaced, hanswer⟩, -⟩ :=
    hshares.answer_eq 0 buildRefusing (.error (.hook "idle" "refused")) (Nat.zero_le _) rfl
  obtain ⟨-, hone⟩ := hshares.answer_eq 1 buildIdle (.ok 0) (Nat.zero_le _) rfl
  have hdiscreet : ∀ call, .begin call ∈ raced → call.Discreet := by
    intro call hcall
    have hcall : call = .lookupOrAdd "a" buildRefusing ∨ call = .lookupOrAdd "a" buildIdle ∨
        call = .lookupOrAdd "a" buildIdle := by
      simpa [raced] using hcall
    obtain rfl | rfl | rfl := hcall <;> exact fun _ => List.forall_mem_nil _
  obtain ⟨-, hannounced⟩ := honce rfl (List.forall_mem_nil _) hdiscreet
  have hstored : storedUnder ((Traffic.opening true ()).play obliging raced).site "a" = 1 := by
    decide +kernel
  exact ⟨⟨placement, hplaced, hanswer⟩, hone 0 rfl, (hannounced hquiet).trans hstored⟩

/-- A lookup that is refused a server is heard nevertheless. -/
theorem refused_aloud :
    let t := (Traffic.opening true ()).play obliging
      [.begin (.lookupOrAdd "a" buildRefusing), .goOn 0]
    (∃ e call, t.calls[0]? = some ⟨call, .done (.handle (.error e))⟩) ∧
      t.site.collection.handle? "a" = none ∧
      t.site.events = [({ kind := .serverStarting } : Event).withServer "idle"] :=
  ⟨⟨_, _, rfl⟩, by decide +kernel, by decide +kernel⟩

/-- A child that is there whatever is done. -/
def clinging : Host Unit :=
  { obliging with reap := fun _ h => (false, h), kill := fun _ _ h => (true, h) }

/-- Hands out a supervisor whose server was stopped, but not seen to be gone, and which would wait
for that longer than any clock can show. -/
def buildSpent : Factory Unit Unit := fun host =>
  (.ok { supervisor := { Supervisor.ofServer { name := fun _ => "idle" } ()
    { killTimeout := .longest } .origin with life := .stopped 7 false } }, [], host)

/-- A lookup that panics over the supervisor that it was refused is over, and stores nothing. -/
example :
    let t := (Traffic.opening true ()).play clinging
      [.begin (.lookupOrAdd "a" buildSpent), .goOn 0]
    (∃ call p answer, t.calls[0]? = some ⟨call, .wait (.panicked p) (.done answer)⟩) ∧
      t.site.collection.handle? "a" = none :=
  ⟨⟨_, _, _, rfl⟩, rfl⟩

end Collection

end Overseer
