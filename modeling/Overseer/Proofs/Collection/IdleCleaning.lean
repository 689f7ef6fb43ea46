import Overseer.Proofs.Collection.Undisturbed

/-!
# A collection is cleaned of its idle servers

A supervisor can be cleaned if it is `Slot.Overdue`: nobody uses it, and its idle time has passed
since it was last used. Cleaning looks for all of these at one time, takes their entries out, and
only then stops one after the other (`alone_retireAll`). Nothing that belongs to another entry is
touched meanwhile, so what is cleaned is what was overdue when the clock was read, whatever becomes
of the clock while servers are slow to stop (`cleanIdle_cleans`).
-/

namespace Overseer

variable {η σ : Type} {H : Host η}

/-- When the server becomes idle, in nanoseconds after the clock's origin. The clock need not come
to that. -/
def Supervisor.idleFrom (s : Supervisor σ) : Nat :=
  s.lastActivity.nanos + s.config.maxIdleTime.nanos

/-- The clock can show when the server becomes idle, if it ever does. -/
def Supervisor.Foreseeable (s : Supervisor σ) : Prop :=
  s.config.maxIdleTime = .zero ∨ s.idleFrom < Instant.bound

instance (s : Supervisor σ) : Decidable s.Foreseeable := inferInstanceAs (Decidable (_ ∨ _))

/-- What a collection announces of a server that was cleaned: its key, and how long it may stay
unused. -/
def Event.idleCleaned (key : String) (limit : Duration) : Event :=
  { kind := .idleCleaned
    server := some key
    timeoutMillis := some (min limit.millis Event.maxTimeoutMillis) }

namespace Slot

/-- Nobody uses the supervisor, it has an idle time, and that has passed since it was last used. -/
structure Overdue (slot : Slot σ) (now : Instant) : Prop where
  free : slot.locked = false
  limited : slot.supervisor.config.maxIdleTime ≠ .zero
  idleFrom_le : slot.supervisor.idleFrom ≤ now.nanos

end Slot

theorem Supervisor.idleDeadline_eq (s : Supervisor σ) :
    s.idleDeadline = if s.config.maxIdleTime = .zero then .ok none
      else if h : s.idleFrom < Instant.bound then .ok (some ⟨s.idleFrom, h⟩)
      else .error (.text "overflow when adding duration to instant") := by
  rw [idleDeadline, Config.idleLimit?]
  by_cases hzero : s.config.maxIdleTime = .zero
  · simp only [if_pos hzero]
  · simp only [if_neg hzero, Instant.plus_eq]
    show Except.map some (if h : s.idleFrom < Instant.bound then _ else _) = _
    by_cases h : s.idleFrom < Instant.bound
    · simp only [dif_pos h]
      rfl
    · simp only [dif_neg h]
      rfl

namespace Slot

theorem isIdle_iff {slot : Slot σ} {now : Instant} : slot.isIdle now = true ↔ slot.Overdue now := by
  rw [isIdle, Supervisor.idleDeadline_eq, Bool.and_eq_true, Bool.not_eq_true']
  constructor
  · rintro ⟨hfree, hidle⟩
    split at hidle
    · next deadline hdeadline =>
      split at hdeadline
      · cases hdeadline
      · next hlimited =>
        split at hdeadline
        · cases hdeadline
          exact ⟨hfree, hlimited, of_decide_eq_true hidle⟩
        · cases hdeadline
    · cases hidle
  · rintro ⟨hfree, hlimited, hle⟩
    have hbound : slot.supervisor.idleFrom < Instant.bound := Nat.lt_of_le_of_lt hle now.bounded
    rw [if_neg hlimited, dif_pos hbound]
    exact ⟨hfree, decide_eq_true hle⟩

/-- There is a panic over an idle time if nobody uses the supervisor and the clock cannot show when
it becomes idle. -/
theorem idlePanic?_eq (slot : Slot σ) :
    slot.idlePanic? = if slot.locked = true ∨ slot.supervisor.Foreseeable then none
      else some (.text "overflow when adding duration to instant") := by
  rw [idlePanic?, Supervisor.idleDeadline_eq]
  by_cases hlocked : slot.locked = true
  · simp [hlocked]
  by_cases hzero : slot.supervisor.config.maxIdleTime = .zero
  · simp [Supervisor.Foreseeable, hlocked, hzero]
  by_cases hbound : slot.supervisor.idleFrom < Instant.bound
  · simp [Supervisor.Foreseeable, hlocked, hzero, hbound]
  · simp [Supervisor.Foreseeable, hlocked, hzero, hbound]

theorem idlePanic?_eq_none_iff {slot : Slot σ} :
    slot.idlePanic? = none ↔ slot.locked = true ∨ slot.supervisor.Foreseeable := by
  rw [idlePanic?_eq]
  by_cases hsafe : slot.locked = true ∨ slot.supervisor.Foreseeable
  · rw [if_pos hsafe]
    exact iff_of_true rfl hsafe
  · rw [if_neg hsafe]
    exact iff_of_false (Option.some_ne_none _) hsafe

end Slot

namespace Collection

/-! ## Entries -/

/-- The slot that is stored under a key. -/
def slotUnder? (c : Collection σ) (key : String) : Option (Slot σ) :=
  (c.handle? key).bind c.slot?

/-- The clock can show when those servers become idle that nobody uses. -/
def Foreseeable (c : Collection σ) : Prop :=
  ∀ key slot, c.slotUnder? key = some slot → slot.locked = false → slot.supervisor.Foreseeable

/-- Each key has one entry, and each entry has a slot of its own. -/
structure Sound (c : Collection σ) : Prop where
  keys_nodup : (c.entries.map Prod.fst).Nodup
  handles_nodup : (c.entries.map Prod.snd).Nodup
  known : ∀ entry ∈ c.entries, ∃ slot, c.slot? entry.2 = some slot

theorem sound_iff {c : Collection σ} :
    c.Sound ↔ (c.entries.map Prod.fst).Nodup ∧ (c.entries.map Prod.snd).Nodup ∧
      ∀ entry ∈ c.entries, (c.slot? entry.2).isSome := by
  simp only [Option.isSome_iff_exists]
  exact ⟨fun h => ⟨h.keys_nodup, h.handles_nodup, h.known⟩, fun h => ⟨h.1, h.2.1, h.2.2⟩⟩

instance (c : Collection σ) : Decidable c.Sound := decidable_of_iff _ sound_iff.symm

/-- Collections are sound, however the calls on them come between each other. -/
theorem Traffic.InOrder.sound {t : Traffic η σ} (ht : t.InOrder) : t.site.collection.Sound where
  keys_nodup := ht.keys_nodup
  handles_nodup := (ht.handles_perm.nodup_iff.2 List.nodup_range).sublist
    (List.sublist_append_left _ _)
  known entry hentry := by
    have hmem : entry.2 ∈ List.range t.site.collection.slots.length :=
      ht.handles_perm.subset (List.mem_append_left _ (List.mem_map_of_mem hentry))
    exact ⟨_, List.getElem?_eq_getElem (List.mem_range.1 hmem)⟩

section
variable {entries : List (String × Handle)} {p : String × Handle → Bool} {key : String} {h : Handle}

theorem lookup_eq_some_iff (hnodup : (entries.map Prod.fst).Nodup) :
    entries.lookup key = some h ↔ (key, h) ∈ entries := by
  have hfilter := filter_key hnodup key
  constructor
  · intro hlookup
    have hkey : (key, h) ∈ entries.filter fun entry => entry.1 == key := by
      rw [hfilter, hlookup]
      exact List.mem_singleton_self _
    exact (List.mem_filter.1 hkey).1
  · intro hmem
    have hkey : (key, h) ∈ entries.filter fun entry => entry.1 == key :=
      List.mem_filter.2 ⟨hmem, beq_self_eq_true key⟩
    rw [hfilter] at hkey
    obtain ⟨k, hk, heq⟩ := List.mem_map.1 hkey
    cases heq
    exact Option.mem_toList.1 hk

/-- What is under a key once some entries were taken out. -/
theorem lookup_filter (hnodup : (entries.map Prod.fst).Nodup) :
    (entries.filter p).lookup key = (entries.lookup key).filter fun h => p (key, h) := by
  have hnodup' : ((entries.filter p).map Prod.fst).Nodup :=
    hnodup.sublist (List.filter_sublist.map _)
  refine Option.ext fun h => ?_
  rw [lookup_eq_some_iff hnodup', List.mem_filter, Option.filter_eq_some_iff,
    lookup_eq_some_iff hnodup]

end

/-! ## Retiring servers -/

section
variable {s s' s'' : Site η σ} {h : Handle} {slot : Slot σ}

theorem announce_run (e : Event) (s : Site η σ) :
    Deed.announce e s =
      ((), { s with events := s.events ++ if s.collection.announces then [e] else [] }) := by
  show ((), if s.collection.announces then { s with events := s.events ++ [e] } else s) = _
  split
  · rfl
  · rw [List.append_nil]

/-- How long the server of a handle may stay unused. -/
def idleTimeOf (s : Site η σ) (h : Handle) : Duration := (idleTime h s).1

/-- Some servers were retired: each is stopped, and that it was cleaned is announced in the order of
the entries. All else is as it was. -/
structure Retired (entries : List (String × Handle)) (s s' : Site η σ) : Prop where
  entries_eq : s'.collection.entries = s.collection.entries
  announces_eq : s'.collection.announces = s.collection.announces
  slot?_eq : ∀ k, k ∉ entries.map Prod.snd → s'.collection.slot? k = s.collection.slot? k
  closed : ∀ k ∈ entries.map Prod.snd, ∃ slot,
    s'.collection.slot? k = some slot ∧ slot.supervisor.life.isStarted = false
  news : ∃ news, s'.events = s.events ++ news ∧ news.filter (·.kind.isOfCollection) =
    if s.collection.announces then
      entries.map fun entry => .idleCleaned entry.1 (idleTimeOf s entry.2)
    else []

theorem idleTimeOf_congr (hslot : s'.collection.slot? h = s.collection.slot? h) :
    idleTimeOf s' h = idleTimeOf s h := by
  show (s'.collection.slot? h).elim _ _ = (s.collection.slot? h).elim _ _
  rw [hslot]

theorem alone_retire (hH : H.KeepsTime) (key : String) (hslot : s.collection.slot? h = some slot)
    (hfree : slot.locked = false) :
    ∃ s', (retire H key h).alone? H s = some ((), s') ∧ Retired [(key, h)] s s' := by
  obtain ⟨tier, s₁, slot₁, hstop, htends, hslot₁, hclosed⟩ := alone_stopSlot hH hslot hfree
  have hlook : (LongDeed.holding h (Activity.atOnce (idleTime h))).alone? H s =
      some (idleTimeOf s h, s) := by
    have hlimit : (idleTime h (s.setLocked h true)).1 = idleTimeOf s h := by
      show ((s.setLocked h true).collection.slot? h).elim _ _ = (s.collection.slot? h).elim _ _
      rw [slot?_setLocked true hslot, hslot]
      rfl
    rw [LongDeed.alone_holding _ hslot hfree, LongDeed.alone_atOnce, Option.map_some, hlimit]
    show some (_, (s.setLocked h true).setLocked h false) = _
    rw [unlock_lock hslot hfree]
  obtain ⟨work, hwork, hkinds⟩ := htends.hushed
  let e : Event := .idleCleaned key (idleTimeOf s h)
  have hkind : e.kind.isOfCollection = true := rfl
  refine ⟨(Deed.announce e s₁).2, ?_, ?_⟩
  · rw [retire, LongDeed.alone_bind, hlook, Option.bind_some, LongDeed.alone_bind, hstop]
    rfl
  · rw [announce_run]
    refine ⟨htends.entries_eq, htends.announces_eq, fun k hk => ?_, fun k hk => ?_, ?_⟩
    · exact htends.slot?_eq k fun heq => hk (List.mem_singleton.2 heq)
    · obtain rfl : k = h := List.mem_singleton.1 hk
      exact ⟨slot₁, hslot₁, hclosed⟩
    · refine ⟨_, by rw [hwork, List.append_assoc], ?_⟩
      have hquiet : work.filter (·.kind.isOfCollection) = [] :=
        List.filter_eq_nil_iff.2 fun e he => by
          rw [hkinds e he]
          exact Bool.false_ne_true
      rw [List.filter_append, hquiet, htends.announces_eq, List.nil_append]
      split
      · rw [List.filter_singleton, hkind]
        rfl
      · rfl

theorem Retired.append {first rest : List (String × Handle)} (hf : Retired first s s')
    (hr : Retired rest s' s'')
    (hdisjoint : ∀ k ∈ first.map Prod.snd, k ∉ rest.map Prod.snd) :
    Retired (first ++ rest) s s'' where
  entries_eq := hr.entries_eq.trans hf.entries_eq
  announces_eq := hr.announces_eq.trans hf.announces_eq
  slot?_eq k hk := by
    rw [List.map_append, List.mem_append, not_or] at hk
    rw [hr.slot?_eq k hk.2, hf.slot?_eq k hk.1]
  closed k hk := by
    rw [List.map_append, List.mem_append] at hk
    obtain hk | hk := hk
    · rw [hr.slot?_eq k (hdisjoint k hk)]
      exact hf.closed k hk
    · exact hr.closed k hk
  news := by
    obtain ⟨news, hnews, hfilter⟩ := hf.news
    obtain ⟨news', hnews', hfilter'⟩ := hr.news
    refine ⟨news ++ news', by rw [hnews', hnews, List.append_assoc], ?_⟩
    have hlimits : rest.map (fun entry => Event.idleCleaned entry.1 (idleTimeOf s' entry.2)) =
        rest.map fun entry => Event.idleCleaned entry.1 (idleTimeOf s entry.2) := by
      refine List.map_congr_left fun entry hentry => ?_
      have hnot : entry.2 ∉ first.map Prod.snd := fun hmem =>
        hdisjoint _ hmem (List.mem_map_of_mem hentry)
      rw [idleTimeOf_congr (hf.slot?_eq _ hnot)]
    rw [List.filter_append, hfilter, hfilter', hf.announces_eq, hlimits]
    split
    · rw [List.map_append]
    · rfl

/-- **Servers that nobody uses are retired** one after the other. -/
theorem alone_retireAll (hH : H.KeepsTime) {entries : List (String × Handle)}
    (hnodup : (entries.map Prod.snd).Nodup)
    (hfree : ∀ entry ∈ entries, ∃ slot, s.collection.slot? entry.2 = some slot ∧
      slot.locked = false) :
    ∃ s', (entries.forM fun entry => retire H entry.1 entry.2 : LongDeed η σ Unit).alone? H s =
      some ((), s') ∧ Retired entries s s' := by
  induction entries generalizing s with
  | nil =>
    refine ⟨s, rfl, rfl, rfl, fun k _ => rfl, fun k hk => absurd hk List.not_mem_nil, [], ?_, ?_⟩
    · rw [List.append_nil]
    · split <;> rfl
  | cons entry rest ih =>
    obtain ⟨key, h⟩ := entry
    obtain ⟨hnot, hrest⟩ := List.nodup_cons.1 hnodup
    obtain ⟨slot, hslot, hopen⟩ := hfree (key, h) List.mem_cons_self
    obtain ⟨s₁, hrun, hfirst⟩ := alone_retire hH key hslot hopen
    have hfree' : ∀ entry ∈ rest, ∃ slot, s₁.collection.slot? entry.2 = some slot ∧
        slot.locked = false := by
      intro entry hentry
      have hother : entry.2 ∉ [(key, h)].map Prod.snd := fun hmem =>
        hnot (List.mem_singleton.1 hmem ▸ List.mem_map_of_mem hentry)
      rw [hfirst.slot?_eq _ hother]
      exact hfree entry (List.mem_cons_of_mem _ hentry)
    obtain ⟨s', hrun', hlater⟩ := ih hrest hfree'
    refine ⟨s', ?_, hfirst.append hlater fun k hk => List.mem_singleton.1 hk ▸ hnot⟩
    show (retire H key h >>= fun _ => rest.forM fun entry =>
      retire H entry.1 entry.2).alone? H s = _
    rw [LongDeed.alone_bind, hrun]
    exact hrun'

end

/-! ## Cleaning -/

section
variable {s s' : Site η σ}

/-- What comes of cleaning a collection at some time, with the keys that are the answer. -/
structure Cleaned (now : Instant) (keys : List String) (s s' : Site η σ) : Prop where
  keys_nodup : keys.Nodup
  /-- What was cleaned is what was overdue. -/
  mem_keys : ∀ key, key ∈ keys ↔ ∃ slot, s.collection.slotUnder? key = some slot ∧ slot.Overdue now
  /-- It is not stored any more, and its server does not run. -/
  gone : ∀ key ∈ keys, s'.collection.handle? key = none ∧
    ∃ h slot, s.collection.handle? key = some h ∧ s'.collection.slot? h = some slot ∧
      slot.supervisor.life.isStarted = false
  /-- All else is stored as it was, with supervisors as they were. -/
  kept : ∀ key, key ∉ keys → s'.collection.handle? key = s.collection.handle? key ∧
    s'.collection.slotUnder? key = s.collection.slotUnder? key
  /-- Each server that was cleaned is announced once, with its own idle time, and nothing else is
  that collections announce. -/
  announced : ∃ news, s'.events = s.events ++ news ∧ news.filter (·.kind.isOfCollection) =
    if s.collection.announces then keys.filterMap fun key =>
      (s.collection.slotUnder? key).map fun slot =>
        .idleCleaned key slot.supervisor.config.maxIdleTime
    else []

theorem takeIdle_run (now : Instant) (h : s.collection.idlePanic? = none) :
    takeIdle now s = (.ok (s.collection.entries.filter (s.collection.isIdle now)),
      { s with collection := (s.collection.extract (s.collection.isIdle now)).2 }) := by
  rw [takeIdle, h]
  rfl

theorem isIdle_iff {c : Collection σ} {now : Instant} {entry : String × Handle} :
    c.isIdle now entry = true ↔ ∃ slot, c.slot? entry.2 = some slot ∧ slot.Overdue now := by
  rw [isIdle, Option.any_eq_true]
  simp only [Slot.isIdle_iff]

theorem alone_cleanIdle (hH : H.KeepsTime) (hs : s.collection.Sound)
    (hpanic : s.collection.idlePanic? = none) :
    ∃ s', (cleanIdle H).alone? H s =
        some (.ok ((s.collection.entries.filter (s.collection.isIdle (H.now s.host))).map Prod.fst),
          s') ∧
      Retired (s.collection.entries.filter (s.collection.isIdle (H.now s.host)))
        { s with collection := (s.collection.extract (s.collection.isIdle (H.now s.host))).2 }
        s' := by
  let idle := s.collection.entries.filter (s.collection.isIdle (H.now s.host))
  have hfree : ∀ entry ∈ idle, ∃ slot, s.collection.slot? entry.2 = some slot ∧
      slot.locked = false := by
    intro entry hentry
    obtain ⟨slot, hslot, hdue⟩ := isIdle_iff.1 (List.mem_filter.1 hentry).2
    exact ⟨slot, hslot, hdue.free⟩
  have hnodup : (idle.map Prod.snd).Nodup :=
    hs.handles_nodup.sublist (List.filter_sublist.map _)
  obtain ⟨s', hrun, hretired⟩ := alone_retireAll
    (s := { s with collection := (s.collection.extract (s.collection.isIdle (H.now s.host))).2 })
    hH hnodup hfree
  refine ⟨s', ?_, hretired⟩
  have hget : LongDeed.alone? H (get : LongDeed η σ (Site η σ)) s = some (s, s) := rfl
  rw [cleanIdle, LongDeed.alone_bind, hget, Option.bind_some, LongDeed.alone_bind,
    LongDeed.alone_atOnce, takeIdle_run _ hpanic]
  show LongDeed.alone? H (List.forM idle _ >>= _) _ = _
  rw [LongDeed.alone_bind]
  show (LongDeed.alone? H (idle.forM fun entry => retire H entry.1 entry.2) _).bind _ = _
  rw [hrun]
  rfl

theorem slotUnder?_eq_some_iff {c : Collection σ} (hc : c.Sound) {key : String} {slot : Slot σ} :
    c.slotUnder? key = some slot ↔ ∃ h, (key, h) ∈ c.entries ∧ c.slot? h = some slot := by
  rw [slotUnder?, Option.bind_eq_some_iff]
  exact exists_congr fun h => and_congr_left fun _ => lookup_eq_some_iff hc.keys_nodup

theorem idlePanic?_eq_none_iff {c : Collection σ} (hc : c.Sound) :
    c.idlePanic? = none ↔ c.Foreseeable := by
  rw [idlePanic?, List.findSome?_eq_none_iff]
  simp only [Option.bind_eq_none_iff, Slot.idlePanic?_eq_none_iff]
  constructor
  · intro h key slot hunder hfree
    obtain ⟨k, hentry, hslot⟩ := (slotUnder?_eq_some_iff hc).1 hunder
    exact (h (key, k) hentry slot hslot).resolve_left (by rw [hfree]; exact Bool.false_ne_true)
  · rintro h ⟨key, k⟩ hentry slot hslot
    cases hlocked : slot.locked with
    | true => exact .inl rfl
    | false => exact .inr (h key slot ((slotUnder?_eq_some_iff hc).2 ⟨k, hentry, hslot⟩) hlocked)

/-- The keys of the idle servers are those that are overdue. -/
theorem mem_idle_keys {c : Collection σ} (hc : c.Sound) {now : Instant} {key : String} :
    key ∈ (c.entries.filter (c.isIdle now)).map Prod.fst ↔
      ∃ slot, c.slotUnder? key = some slot ∧ slot.Overdue now := by
  constructor
  · intro hkey
    obtain ⟨⟨_, h⟩, hentry, rfl⟩ := List.mem_map.1 hkey
    obtain ⟨hentry, hidle⟩ := List.mem_filter.1 hentry
    obtain ⟨slot, hslot, hdue⟩ := isIdle_iff.1 hidle
    exact ⟨slot, (slotUnder?_eq_some_iff hc).2 ⟨h, hentry, hslot⟩, hdue⟩
  · rintro ⟨slot, hunder, hdue⟩
    obtain ⟨h, hentry, hslot⟩ := (slotUnder?_eq_some_iff hc).1 hunder
    exact List.mem_map.2
      ⟨(key, h), List.mem_filter.2 ⟨hentry, isIdle_iff.2 ⟨slot, hslot, hdue⟩⟩, rfl⟩

/-- To take the idle servers out and retire them is to clean a collection of them. -/
theorem cleaned_of_retired {now : Instant} (hs : s.collection.Sound)
    (hretired : Retired (s.collection.entries.filter (s.collection.isIdle now))
      { s with collection := (s.collection.extract (s.collection.isIdle now)).2 } s') :
    Cleaned now ((s.collection.entries.filter (s.collection.isIdle now)).map Prod.fst) s s' := by
  have hhandle : ∀ key, s'.collection.handle? key =
      (s.collection.handle? key).filter fun h => !s.collection.isIdle now (key, h) := by
    intro key
    rw [handle?, hretired.entries_eq]
    exact lookup_filter hs.keys_nodup
  have hlookup : ∀ key h, s.collection.handle? key = some h ↔ (key, h) ∈ s.collection.entries :=
    fun key h => lookup_eq_some_iff hs.keys_nodup
  refine ⟨hs.keys_nodup.sublist (List.filter_sublist.map _), fun key => mem_idle_keys hs,
    fun key hkey => ?_, fun key hkey => ?_, ?_⟩
  · obtain ⟨⟨_, h⟩, hidle, rfl⟩ := List.mem_map.1 hkey
    obtain ⟨hentry, hdue⟩ := List.mem_filter.1 hidle
    have hstored := (hlookup _ h).2 hentry
    obtain ⟨slot, hslot, hclosed⟩ := hretired.closed h (List.mem_map_of_mem hidle)
    refine ⟨?_, h, slot, hstored, hslot, hclosed⟩
    rw [hhandle, hstored]
    exact Option.filter_eq_none_iff.2 fun k hk => by cases hk; simpa using hdue
  · cases hstored : s.collection.handle? key with
    | none =>
      rw [slotUnder?, slotUnder?, hhandle, hstored]
      exact ⟨rfl, rfl⟩
    | some h =>
      have hentry := (hlookup key h).1 hstored
      have hbusy : s.collection.isIdle now (key, h) = false := by
        rw [← Bool.not_eq_true]
        exact fun hdue => hkey (List.mem_map.2 ⟨(key, h), List.mem_filter.2 ⟨hentry, hdue⟩, rfl⟩)
      have hstored' : s'.collection.handle? key = some h := by
        rw [hhandle, hstored]
        exact Option.filter_eq_some_iff.2 ⟨rfl, by rw [hbusy]; rfl⟩
      -- Handles are not shared, so none of the servers that were stopped is this one.
      have hother : h ∉ (s.collection.entries.filter (s.collection.isIdle now)).map Prod.snd := by
        intro hmem
        obtain ⟨entry, hidle, hsame⟩ := List.mem_map.1 hmem
        obtain ⟨hentry', hdue⟩ := List.mem_filter.1 hidle
        obtain rfl := List.inj_on_of_nodup_map hs.handles_nodup hentry' hentry hsame
        rw [hbusy] at hdue
        cases hdue
      rw [slotUnder?, slotUnder?, hstored', hstored]
      exact ⟨rfl, hretired.slot?_eq h hother⟩
  · obtain ⟨news, hnews, hfilter⟩ := hretired.news
    refine ⟨news, hnews, hfilter.trans ?_⟩
    rw [List.filterMap_map]
    refine if_congr Iff.rfl (Eq.symm ?_) rfl
    rw [← List.filterMap_eq_map]
    refine List.filterMap_congr fun entry hidle => ?_
    obtain ⟨hentry, hdue⟩ := List.mem_filter.1 hidle
    obtain ⟨slot, hslot, -⟩ := isIdle_iff.1 hdue
    have hunder : s.collection.slotUnder? entry.1 = some slot :=
      (slotUnder?_eq_some_iff hs).2 ⟨entry.2, hentry, hslot⟩
    have hlimit : idleTimeOf s entry.2 = slot.supervisor.config.maxIdleTime := by
      show (s.collection.slot? entry.2).elim _ _ = _
      rw [hslot]
      rfl
    show Option.map _ (s.collection.slotUnder? entry.1) = some (Event.idleCleaned entry.1 _)
    rw [hunder]
    exact congrArg (fun limit => some (Event.idleCleaned entry.1 limit)) hlimit.symm

/-- **A collection is cleaned of its idle servers and of nothing else**, by a caller that has it to
itself and the patience, whatever its servers and the host do meanwhile: if the clock can show when
those that nobody uses become idle, it is cleaned of those that were overdue at the start. -/
theorem cleanIdle_cleans (hH : H.KeepsTime) (c : Caller η σ) (hc : c.cleaners = [])
    (hsound : c.site.collection.Sound) (hclock : c.site.collection.Foreseeable) :
    ∃ keys s' enough, (∀ times, enough ≤ times →
        c.perform H times (cleanIdle H) = (some (.ok keys), { c with site := s' })) ∧
      Cleaned (H.now c.site.host) keys c.site s' := by
  obtain ⟨s', halone, hretired⟩ :=
    alone_cleanIdle hH hsound ((idlePanic?_eq_none_iff hsound).2 hclock)
  obtain ⟨enough, hperform⟩ := Caller.perform_of_alone hc halone
  exact ⟨_, s', enough, hperform, cleaned_of_retired hsound hretired⟩

end

end Collection

/-- The clock of a child's host counts the time that has passed. -/
theorem Fate.keepsTime (fate : Fate) : fate.host.KeepsTime where
  sleep d w := by
    have hnow (time : Nat) : (Instant.origin.later (.ofNanos time)).nanos =
        min time Instant.last.nanos := by
      have hlast : Instant.last.nanos ≤ Duration.longest.nanos := by decide
      have horigin : Instant.origin.nanos = 0 := rfl
      rw [Instant.nanos_later, Duration.nanos_ofNanos_eq_min]
      omega
    show ((Instant.origin.later (.ofNanos w.time)).later d).nanos ≤
      (Instant.origin.later (.ofNanos (w.time + d.nanos))).nanos
    rw [Instant.nanos_later, hnow, hnow]
    omega
  reap _ _ := Nat.le_refl _

namespace Collection

/-- The supervisor of a server that has not been used since the clock's origin, and may stay unused
for so many milliseconds. -/
def resting (limit : Nat) (life : Life) : Supervisor Unit :=
  { server := { name := fun _ => "quiet" }
    state := ()
    config := { Chronicle.hurried with maxIdleTime := .ofMillis limit }
    name := "quiet"
    life
    lastActivity := .origin }

/-- When the clock shows 10 ms, two of these four servers are overdue, and one of the two is used.
Another is overdue 1 ms later. -/
def lounge : Site Watch Unit where
  collection :=
    { entries := [("due", 0), ("used", 1), ("unlimited", 2), ("later", 3)]
      slots :=
        [{ supervisor := resting 10 (.started 7 ⟨3, 4⟩ {} false) },
          { supervisor := resting 10 .notStarted, locked := true },
          { supervisor := resting 0 .notStarted },
          { supervisor := resting 11 .notStarted }] }
  host := { time := 10_000_000 }

/-- A server is cleaned as soon as it is overdue, and not 1 ms before. -/
theorem cleanIdle_cleans_lounge :
    let H := Chronicle.stubborn.host
    ∃ s' enough, (∀ times, enough ≤ times →
        ({ site := lounge } : Caller Watch Unit).perform H times (cleanIdle H) =
          (some (.ok ["due"]), { site := s' })) ∧
      Cleaned (H.now lounge.host) ["due"] lounge s' := by
  intro H
  have hsound : lounge.collection.Sound := by decide +kernel
  have hshown : ∀ entry ∈ lounge.collection.entries, ∀ slot ∈ lounge.collection.slot? entry.2,
      slot.supervisor.idleFrom < Instant.bound := by
    decide +kernel
  have hclock : lounge.collection.Foreseeable := by
    intro key slot hunder _
    obtain ⟨h, hentry, hslot⟩ := (slotUnder?_eq_some_iff hsound).1 hunder
    exact .inr (hshown (key, h) hentry slot hslot)
  obtain ⟨keys, s', enough, hperform, hcleaned⟩ :=
    cleanIdle_cleans Chronicle.stubborn.keepsTime { site := lounge } rfl hsound hclock
  have hkeys : keys = ["due"] := by
    refine List.perm_singleton.1 ((List.perm_ext_iff_of_nodup hcleaned.keys_nodup
      (List.nodup_singleton _)).2 fun key => ?_)
    have hidle : (lounge.collection.entries.filter
        (lounge.collection.isIdle (H.now lounge.host))).map Prod.fst = ["due"] := by
      decide +kernel
    rw [hcleaned.mem_keys, ← mem_idle_keys hsound, hidle]
  subst hkeys
  exact ⟨s', enough, hperform, hcleaned⟩

end Collection

end Overseer
