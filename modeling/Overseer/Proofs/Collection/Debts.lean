import Overseer.Proofs.Collection.Traffic

/-!
# What a call on a collection still owes

A call that has taken an entry out owes it to stop the server and to announce that it is gone; one
that has stored a supervisor owes to announce that. This `Debt` is all that one call has to know
about the others: whatever they do meanwhile, each section of a call does one of few things to the
site (`Deal`), and a call that is over owes nothing (`Call.meets`).
-/

namespace Overseer

variable {η σ : Type} (H : Host η)

namespace Site

/-- How many supervisors were ever stored. -/
def size (s : Site η σ) : Nat := s.collection.slots.length

/-- The stage of life of a supervisor, by its handle. -/
def stage (s : Site η σ) (h : Handle) : Nat :=
  (s.collection.slot? h).elim 0 fun slot => slot.supervisor.life.stage

variable {s s' : Site η σ}

theorem stage_of_slot {h : Handle} {slot : Slot σ} (hslot : s.collection.slot? h = some slot) :
    s.stage h = slot.supervisor.life.stage := by
  simp [stage, hslot]

theorem isStopped_iff {h : Handle} : s.isStopped h = true ↔ s.stage h = 2 := by
  cases hslot : s.collection.slot? h with
  | none => simp [isStopped, stage, hslot]
  | some slot => simp [isStopped, stage, hslot, Life.stage_eq_two]

theorem stage_le_two (s : Site η σ) (h : Handle) : s.stage h ≤ 2 := by
  cases hslot : s.collection.slot? h with
  | none => simp [stage, hslot]
  | some slot => simpa [stage, hslot] using slot.supervisor.life.stage_le_two

theorem slot?_setSlot {c : Collection σ} {h k : Handle} {old slot : Slot σ}
    (hold : c.slot? h = some old) :
    (c.setSlot h slot).slot? k = if h = k then some slot else c.slot? k := by
  have hlt : h < c.slots.length := (List.getElem?_eq_some_iff.1 hold).1
  by_cases hk : h = k
  · subst hk
    simp [Collection.setSlot, Collection.slot?, hlt]
  · simp [Collection.setSlot, Collection.slot?, hk]

end Site

namespace Collection

/-- What a call has still to do. -/
structure Debt where
  /-- The handles whose supervisors it may stop. -/
  mine : List Handle := []
  /-- The keys under which it has stored something that it is to announce. -/
  added : List String := []
  /-- The entries that it has taken out and is to stop. -/
  running : List (String × Handle) := []
  /-- The keys of entries that it has taken out and stopped, and is to announce as gone. -/
  gone : List String := []

/-- Nothing is left to do. -/
def Debt.Paid (d : Debt) : Prop := d.added = [] ∧ d.running = [] ∧ d.gone = []

/-- What was announced from one site to another is not what collections announce. -/
def Hushed (s s' : Site η σ) : Prop :=
  ∃ news, s'.events = s.events ++ news ∧ ∀ e ∈ news, e.kind.isOfCollection = false

/-- Supervisors go on with their lives, those of some handles perhaps up to their end. Nothing comes
or goes. -/
structure Keeps (mine : List Handle) (s s' : Site η σ) : Prop where
  entries_eq : s'.collection.entries = s.collection.entries
  announces_eq : s'.collection.announces = s.collection.announces
  size_eq : s'.size = s.size
  stage_le : ∀ h, s.stage h ≤ s'.stage h
  stage_eq : ∀ h, h ∉ mine → s'.stage h = s.stage h

/-- That is all that happens, and collections announce nothing meanwhile if factories are
discreet. -/
structure Works (discreet : Prop) (mine : List Handle) (s s' : Site η σ) : Prop
    extends Keeps mine s s' where
  hushed : discreet → Hushed s s'

/-- One event of a key is announced, if anything is. -/
structure Announces (kinds : List EventKind) (key : String) (s s' : Site η σ) : Prop where
  collection_eq : s'.collection = s.collection
  news : s.collection.announces = true →
    ∃ e, s'.events = s.events ++ [e] ∧ e.kind ∈ kinds ∧ e.server = some key

/-- A supervisor that runs is stored under a free key. -/
structure Stores (key : String) (s s' : Site η σ) : Prop where
  free : s.collection.contains key = false
  entries_eq : s'.collection.entries = s.collection.entries ++ [(key, s.size)]
  announces_eq : s'.collection.announces = s.collection.announces
  size_eq : s'.size = s.size + 1
  stage_new : s'.stage s.size = 1
  stage_eq : ∀ h, h ≠ s.size → s'.stage h = s.stage h

/-- The entries of some kind are taken out. -/
structure Takes (p : String × Handle → Bool) (s s' : Site η σ) : Prop where
  entries_eq : s'.collection.entries = s.collection.entries.filter fun entry => !p entry
  announces_eq : s'.collection.announces = s.collection.announces
  size_eq : s'.size = s.size
  stage_eq : ∀ h, s'.stage h = s.stage h
  events_eq : s'.events = s.events

/-- What a section of a call can do: to its debt, on a site, and what debt it leaves, on the site
after it. -/
inductive Deal (discreet : Prop) : Debt → Site η σ → Debt → Site η σ → Prop
  /-- Supervisors work. -/
  | works {d : Debt} {s s' : Site η σ} (h : Works discreet d.mine s s') : Deal discreet d s d s'
  /-- What is stored is to be announced. -/
  | stores {s s' : Site η σ} (key : String) (h : Stores key s s')
      (hhushed : discreet → Hushed s s') : Deal discreet {} s { added := [key] } s'
  /-- What was stored is announced. -/
  | welcomes {s s' : Site η σ} (key : String) (h : Announces [.serverAdded] key s s') :
      Deal discreet { added := [key] } s {} s'
  /-- What is taken out is to be stopped. -/
  | takes {s s' : Site η σ} (p : String × Handle → Bool) (h : Takes p s s') :
      Deal discreet {} s
        { mine := (s.collection.entries.filter p).map Prod.snd
          running := s.collection.entries.filter p } s'
  /-- What was taken out is stopped. -/
  | stops {mine : List Handle} {rest : List (String × Handle)} {s s' : Site η σ} (key : String)
      (h : Handle) (hworks : Works discreet mine s s') (hstopped : s'.stage h = 2) :
      Deal discreet { mine, running := (key, h) :: rest } s { mine, running := rest, gone := [key] }
        s'
  /-- What was stopped is announced as gone. -/
  | clears {mine : List Handle} {rest : List (String × Handle)} {s s' : Site η σ} (key : String)
      (h : Announces [.serverRemoved, .idleCleaned] key s s') :
      Deal discreet { mine, running := rest, gone := [key] } s { mine, running := rest } s'

/-- What a call can rely on: nothing is stored twice under a key, all supervisors were started once,
and those that it is to stop are there. -/
structure Fits (d : Debt) (s : Site η σ) : Prop where
  keys_nodup : (s.collection.entries.map Prod.fst).Nodup
  born : ∀ h, h < s.size → 1 ≤ s.stage h
  known : ∀ entry ∈ d.running, entry.2 ∈ d.mine ∧ entry.2 < s.size

/-- The terms on which calls share a site. -/
def terms (discreet : Prop) : Activity.Terms Debt (Site η σ) := ⟨Fits, Deal discreet⟩

variable {discreet : Prop} {mine : List Handle} {s s' s'' : Site η σ}

theorem deed_bind {α β : Type} (deed : Deed η σ α) (f : α → Deed η σ β) (s : Site η σ) :
    (deed >>= f) s = f (deed s).1 (deed s).2 := rfl

theorem deed_get (s : Site η σ) : (get : Deed η σ (Site η σ)) s = (s, s) := rfl

/-! ## Work -/

theorem Hushed.refl (s : Site η σ) : Hushed s s :=
  ⟨[], (List.append_nil _).symm, List.forall_mem_nil _⟩

theorem Hushed.trans (h : Hushed s s') (h' : Hushed s' s'') : Hushed s s'' := by
  obtain ⟨news, hnews, hkinds⟩ := h
  obtain ⟨news', hnews', hkinds'⟩ := h'
  exact ⟨news ++ news', by rw [hnews', hnews, List.append_assoc],
    List.forall_mem_append.2 ⟨hkinds, hkinds'⟩⟩

theorem Keeps.of_same (hcollection : s'.collection = s.collection) : Keeps mine s s' where
  entries_eq := by rw [hcollection]
  announces_eq := by rw [hcollection]
  size_eq := by rw [Site.size, hcollection, Site.size]
  stage_le h := Nat.le_of_eq (by rw [Site.stage, Site.stage, hcollection])
  stage_eq h _ := by rw [Site.stage, Site.stage, hcollection]

theorem Announces.keeps {kinds : List EventKind} {key : String} (h : Announces kinds key s s') :
    Keeps mine s s' := .of_same h.collection_eq

namespace Works

theorem of_same (hcollection : s'.collection = s.collection) (h : discreet → Hushed s s') :
    Works discreet mine s s' := ⟨.of_same hcollection, h⟩

theorem refl (s : Site η σ) : Works discreet mine s s := of_same rfl fun _ => .refl s

/-- Another slot was put in the place of one, and its supervisor has gone on. -/
theorem of_setSlot {h : Handle} {old slot : Slot σ} (hold : s.collection.slot? h = some old)
    (hcollection : s'.collection = s.collection.setSlot h slot)
    (hle : old.supervisor.life.stage ≤ slot.supervisor.life.stage)
    (hmine : h ∈ mine ∨ slot.supervisor.life.stage = old.supervisor.life.stage)
    (hhushed : discreet → Hushed s s') : Works discreet mine s s' := by
  have hstage (k : Handle) :
      s'.stage k = if h = k then slot.supervisor.life.stage else s.stage k := by
    rw [Site.stage, hcollection, Site.slot?_setSlot hold]
    split <;> rfl
  refine ⟨⟨by rw [hcollection]; rfl, by rw [hcollection]; rfl, ?_, ?_, ?_⟩, hhushed⟩
  · simp [Site.size, hcollection, setSlot]
  · intro k
    rw [hstage]
    split
    · next hk =>
      subst hk
      rwa [Site.stage_of_slot hold]
    · exact Nat.le_refl _
  · intro k hk
    rw [hstage]
    split
    · next heq =>
      subst heq
      rw [hmine.resolve_left hk, Site.stage_of_slot hold]
    · rfl

end Works

theorem setLocked_works (h : Handle) (locked : Bool) (s : Site η σ) :
    Works discreet mine s (s.setLocked h locked) := by
  cases hslot : s.collection.slot? h with
  | none => exact .of_same (by simp [Site.setLocked, setLocked, hslot]) fun _ => .refl s
  | some slot =>
    have hcollection : (s.setLocked h locked).collection =
        s.collection.setSlot h { slot with locked } := by
      simp [Site.setLocked, setLocked, hslot]
    exact .of_setSlot hslot hcollection (Nat.le_refl _) (.inr rfl) fun _ => .refl s

/-- When a supervisor has gone on, so has the site. -/
theorem put_works {h : Handle} {x x' : Scene η σ} (hx : s.scene? h = some x) (hon : Onward x x')
    (hmine : h ∈ mine ∨ x'.supervisor.life.stage = x.supervisor.life.stage) :
    Works discreet mine s (s.put h x') := by
  obtain ⟨slot, hslot, rfl⟩ := Option.map_eq_some_iff.1 hx
  obtain ⟨hle, news, hnews, hkinds⟩ := hon
  have hput : s.put h x' =
      { collection := s.collection.setSlot h { slot with supervisor := x'.supervisor }
        host := x'.host
        events := if slot.announces then s.events ++ x'.events else s.events } := by
    simp [Site.put, hslot]
  rw [hput]
  refine .of_setSlot hslot rfl hle hmine fun _ => ?_
  show ∃ _, _
  split
  · exact ⟨news, by simpa using hnews, hkinds⟩
  · exact ⟨[], (List.append_nil _).symm, List.forall_mem_nil _⟩

theorem stage_put {h : Handle} {x x' : Scene η σ} (hx : s.scene? h = some x) :
    (s.put h x').stage h = x'.supervisor.life.stage := by
  obtain ⟨slot, hslot, -⟩ := Option.map_eq_some_iff.1 hx
  simp [Site.put, hslot, Site.stage, Site.slot?_setSlot hslot]

theorem announce_announces {kinds : List EventKind} {key : String} {e : Event}
    (hkind : e.kind ∈ kinds) (hserver : e.server = some key) (s : Site η σ) :
    Announces kinds key s (Deed.announce e s).2 := by
  have hrun : (Deed.announce e s).2 =
      if s.collection.announces then { s with events := s.events ++ [e] } else s := rfl
  rw [hrun]
  split
  · exact ⟨rfl, fun _ => ⟨e, rfl, hkind, hserver⟩⟩
  · next hannounces => exact ⟨rfl, fun h => absurd h hannounces⟩

/-! ## Calls -/

section
open Activity

/-- A section that does some work is paid for, whatever there is to do. -/
theorem meets_working {α : Type} {d : Debt} {f : StateM (Site η σ) α}
    (h : ∀ s, Fits d s → Works discreet d.mine s (f s).2) :
    Meets (terms discreet) (fun d' _ => d' = d) d (atOnce f : LongDeed η σ α) := fun s hs =>
  ⟨d, .works (h s hs), rfl⟩

/-- What a supervisor does over some time is work. -/
theorem meets_on {α : Type} {post : α → Prop} {d : Debt} {h : Handle} {act : LongAct η σ α}
    (hact : Each Onward post act) (hmine : h ∈ d.mine) :
    Meets (terms discreet) (fun d' a => d' = d ∧ ∀ b ∈ a, post b) d (LongDeed.on H h act) :=
  hact.within (fun _ _ _ _ hlook hon => .works (put_works hlook hon (.inl hmine)))
    fun s _ => .works (.refl s)

/-- To have a handle locked meanwhile is no matter. -/
theorem meets_holding {α : Type} {post : Debt → α → Prop} {d : Debt} {h : Handle}
    {deed : LongDeed η σ α} (hdeed : Meets (terms discreet) post d deed) :
    Meets (terms discreet) post d (LongDeed.holding h deed) := by
  show Meets (terms discreet) post d (deed >>= _)
  refine meets_bind hdeed fun d' a ha => ?_
  refine meets_bind (meets_working fun s _ => setLocked_works h false s) ?_
  rintro _ ⟨⟩ rfl
  exact ha

/-- To stop what was taken out is to hang up, and then work. -/
theorem meets_stop {mine : List Handle} {rest : List (String × Handle)} (key : String) (h : Handle) :
    Meets (terms discreet)
      (fun d a => d = { mine, running := rest, gone := [key] } ∧ ∀ b ∈ a, Supervisor.StopAnswer b)
      { mine, running := (key, h) :: rest } (LongDeed.on H h (Supervisor.stop H) : LongDeed η σ _) := by
  rw [LongDeed.on, Supervisor.stop_eq, Activity.within]
  intro s hs
  obtain ⟨hmine, hlt⟩ := hs.known (key, h) List.mem_cons_self
  obtain ⟨slot, hslot⟩ : ∃ slot, s.collection.slot? h = some slot :=
    ⟨_, List.getElem?_eq_getElem hlt⟩
  have hlook : s.scene? h = some { supervisor := slot.supervisor, host := s.host } := by
    simp [Site.scene?, hslot]
  have hborn : 1 ≤ slot.supervisor.life.stage := by
    rw [← Site.stage_of_slot hslot]
    exact hs.born h hlt
  obtain ⟨hon, hstops, hanswer⟩ :=
    Supervisor.hangUp_onward H { supervisor := slot.supervisor, host := s.host }
  simp only [hlook, Option.elim_some]
  refine ⟨_, .stops key h (put_works hlook hon (.inl hmine)) ?_, ?_⟩
  · rw [stage_put hlook, Life.stage_eq_two]
    exact hstops hborn
  · exact meets_on H (Supervisor.afterHangUp_onward H _ hanswer) hmine

theorem stopSlot_meets {mine : List Handle} {rest : List (String × Handle)} (key : String)
    (h : Handle) :
    Meets (terms discreet)
      (fun d a => d = { mine, running := rest, gone := [key] } ∧ ∃ tier, a = .ok tier)
      { mine, running := (key, h) :: rest } (stopSlot H h : LongDeed η σ _) := by
  refine meets_bind (meets_holding (meets_stop H key h)) ?_
  rintro _ (_ | answer) ⟨rfl, hanswer⟩
  · exact ⟨rfl, none, rfl⟩
  · obtain ⟨tier, rfl⟩ | rfl := hanswer answer rfl
    · exact ⟨rfl, some tier, rfl⟩
    · exact ⟨rfl, none, rfl⟩

theorem meets_clearing {mine : List Handle} {rest : List (String × Handle)} {key : String}
    {e : Event} (hkind : e.kind ∈ [EventKind.serverRemoved, .idleCleaned])
    (hserver : e.server = some key) :
    Meets (terms discreet) (fun d _ => d = { mine, running := rest })
      { mine, running := rest, gone := [key] }
      (atOnce (Deed.announce e) : LongDeed η σ Unit) := fun s _ =>
  ⟨_, .clears key (announce_announces hkind hserver s), rfl⟩

theorem discard_meets {mine : List Handle} (rest : List (String × Handle)) (key : String)
    (h : Handle) :
    Meets (terms discreet) (fun d _ => d = { mine, running := rest })
      { mine, running := (key, h) :: rest } (Collection.discard H key h : LongDeed η σ Unit) := by
  refine meets_bind (stopSlot_meets H key h) ?_
  rintro _ _ ⟨rfl, -⟩
  exact meets_clearing (.head _) rfl

theorem retire_meets {mine : List Handle} (rest : List (String × Handle)) (key : String)
    (h : Handle) :
    Meets (terms discreet) (fun d _ => d = { mine, running := rest })
      { mine, running := (key, h) :: rest } (retire H key h : LongDeed η σ Unit) := by
  refine meets_bind (meets_holding (meets_working fun s _ => .refl s)) ?_
  rintro _ limit rfl
  refine meets_bind (stopSlot_meets H key h) ?_
  rintro _ _ ⟨rfl, tier, rfl⟩
  exact meets_clearing (.tail _ (.head _)) rfl

/-! ### Storing -/

theorem build_hushed {key : String} {factory : Factory η σ}
    (hdiscreet : discreet → (Call.lookupOrAdd key factory).Discreet) (s : Site η σ) :
    (Deed.build factory s).2.collection = s.collection ∧
      (discreet → Hushed s (Deed.build factory s).2) :=
  ⟨rfl, fun hd => ⟨_, rfl, hdiscreet hd s.host⟩⟩

/-- A server that was made ready runs. -/
theorem setUp_onward (x : Scene η σ) :
    Onward x (setUp H x).2 ∧
      ((setUp H x).1 = .ok () → (setUp H x).2.supervisor.life.stage = 1) := by
  rw [setUp, Supervisor.bind_run, Supervisor.get_run]
  by_cases hstarted : x.supervisor.isStarted = true
  · simp only [hstarted, if_true]
    exact ⟨.of_same rfl rfl, fun _ => Life.stage_eq_one.2 hstarted⟩
  · simp only [hstarted, if_false, Bool.false_eq_true, Supervisor.bind_run]
    have hon : Onward x (Supervisor.start H x).2 := (Supervisor.start_move H x).onward
    cases hresult : (Supervisor.start H x).1 with
    | error e => exact ⟨hon, nofun⟩
    | ok =>
      exact ⟨hon.trans (.of_same rfl rfl), fun _ =>
        Life.stage_eq_one.2 (Supervisor.start_ok H hresult)⟩

theorem employ_hushed {α : Type} {slot : Slot σ} {act : Act η σ α}
    (hkinds : ∀ e ∈ (act { supervisor := slot.supervisor, host := s.host }).2.events,
      e.kind.isOfCollection = false) :
    Hushed s (Deed.employ slot act s).2 := by
  show ∃ _, (if slot.announces then s.events ++ _ else s.events) = _ ∧ _
  split
  · exact ⟨_, rfl, hkinds⟩
  · exact ⟨[], (List.append_nil _).symm, List.forall_mem_nil _⟩

theorem stores_deals {key : String} {slot : Slot σ} (hkey : s.collection.handle? key = none)
    (hcollection : s'.collection = s.collection) (hruns : slot.supervisor.life.stage = 1)
    (hhushed : discreet → Hushed s s') :
    Deal discreet {} s { added := [key] }
      { s' with collection := (s'.collection.store key slot).2 } := by
  refine .stores key ⟨by rw [contains, hkey]; rfl, ?_, ?_, ?_, ?_, ?_⟩ hhushed
  · simp [store, hcollection, Site.size]
  · simp [store, hcollection]
  · simp [store, hcollection, Site.size]
  · simp [store, hcollection, Site.size, Site.stage, slot?, hruns]
  · intro h hh
    obtain hlt | hgt := Nat.lt_or_gt_of_ne hh
    · simp [store, hcollection, Site.stage, slot?, List.getElem?_append_left hlt]
    · have hge : s.collection.slots.length ≤ h := Nat.le_of_lt hgt
      have hge' : (s.collection.slots ++ [slot]).length ≤ h := by
        rw [List.length_append]
        exact hgt
      simp only [store, hcollection, Site.stage, slot?, List.getElem?_eq_none hge,
        List.getElem?_eq_none hge']

/-- **To look a key up** stores a supervisor that runs, or nothing comes of it. -/
theorem place_deals {key : String} {factory : Factory η σ}
    (hdiscreet : discreet → (Call.lookupOrAdd key factory).Discreet) (s : Site η σ) :
    (∃ h, (place H key factory s).1 = .stored h ∧
        Deal discreet {} s { added := [key] } (place H key factory s).2) ∨
      (∀ h, (place H key factory s).1 ≠ .stored h) ∧
        Works discreet [] s (place H key factory s).2 := by
  rw [place, deed_bind, deed_get]
  cases hkey : s.collection.handle? key with
  | some h => exact .inr ⟨nofun, .refl s⟩
  | none =>
    simp only [deed_bind]
    obtain ⟨hcollection, hbuilt⟩ := build_hushed hdiscreet s
    generalize (Deed.build factory s).2 = s₁ at hcollection hbuilt ⊢
    cases (Deed.build factory s).1 with
    | error e => exact .inr ⟨nofun, .of_same hcollection hbuilt⟩
    | ok slot =>
      have hset : Hushed s₁ (Deed.employ slot (setUp H) s₁).2 :=
        employ_hushed ((setUp_onward H _).1.kinds rfl)
      have hcollection₂ : (Deed.employ slot (setUp H) s₁).2.collection = s.collection :=
        hcollection
      have hruns : (Deed.employ slot (setUp H) s₁).1.1 = .ok () →
          (Deed.employ slot (setUp H) s₁).1.2.supervisor.life.stage = 1 :=
        (setUp_onward H _).2
      simp only [deed_bind]
      generalize Deed.employ slot (setUp H) s₁ = employed at hset hcollection₂ hruns ⊢
      obtain ⟨⟨result, slot⟩, s₂⟩ := employed
      cases result with
      | error e =>
        have hdrop : Hushed s₂ (Deed.employ slot (Supervisor.drop H) s₂).2 :=
          employ_hushed (by rw [Supervisor.drop_events]; exact List.forall_mem_nil _)
        have hcollection₃ : (Deed.employ slot (Supervisor.drop H) s₂).2.collection = s.collection :=
          hcollection₂
        simp only [deed_bind]
        generalize Deed.employ slot (Supervisor.drop H) s₂ = dropped at hdrop hcollection₃ ⊢
        obtain ⟨⟨given, slot'⟩, s₃⟩ := dropped
        have hworks : Works discreet [] s s₃ :=
          .of_same hcollection₃ fun hd => ((hbuilt hd).trans hset).trans hdrop
        cases given with
        | ok => exact .inr ⟨nofun, hworks⟩
        | error p => exact .inr ⟨nofun, hworks⟩
      | ok =>
        exact .inl ⟨_, rfl, stores_deals hkey hcollection₂ (hruns rfl) fun hd =>
          (hbuilt hd).trans hset⟩

theorem on_run {α : Type} {h : Handle} {x : Scene η σ} (act : Act η σ α)
    (hx : s.scene? h = some x) : Deed.on h act s = (some (act x).1, s.put h (act x).2) := by
  rw [Deed.on, hx]
  rfl

theorem touchUnlessLocked_works (h : Handle) (s : Site η σ) :
    Works discreet mine s (touchUnlessLocked H h s).2 := by
  rw [touchUnlessLocked, deed_bind, deed_get]
  cases hslot : s.collection.slot? h with
  | none => exact .refl s
  | some slot =>
    have hlook : s.scene? h = some { supervisor := slot.supervisor, host := s.host } := by
      simp [Site.scene?, hslot]
    cases hlocked : slot.locked with
    | true =>
      simp only [hlocked, if_true]
      exact .refl s
    | false =>
      simp only [hlocked, Bool.false_eq_true, if_false, deed_bind]
      rw [on_run _ hlook]
      exact put_works hlook (.of_same rfl rfl) (.inr rfl)

theorem place_meets {key : String} {factory : Factory η σ}
    (hdiscreet : discreet → (Call.lookupOrAdd key factory).Discreet) :
    Meets (terms discreet)
      (fun d a => (∃ h, a = .stored h ∧ d = { added := [key] }) ∨ (∀ h, a ≠ .stored h) ∧ d = {}) {}
      (atOnce (place H key factory) : LongDeed η σ Placement) := by
  intro s _
  obtain ⟨h, hstored, hdeal⟩ | ⟨hnot, hworks⟩ := place_deals H hdiscreet s
  · exact ⟨_, hdeal, .inl ⟨h, hstored, rfl⟩⟩
  · exact ⟨{}, .works hworks, .inr ⟨hnot, rfl⟩⟩

theorem lookupOrAdd_meets {key : String} {factory : Factory η σ}
    (hdiscreet : discreet → (Call.lookupOrAdd key factory).Discreet) :
    Meets (terms discreet) (fun d _ => d = {}) {}
      (Collection.lookupOrAdd H key factory : LongDeed η σ _) := by
  refine meets_bind (place_meets H hdiscreet) ?_
  rintro _ placement (⟨h, rfl, rfl⟩ | ⟨hnot, rfl⟩)
  · have hwelcome : Meets (terms discreet) (fun d _ => d = {}) { added := [key] }
        (atOnce (Deed.announce (({ kind := .serverAdded } : Event).withServer key)) :
          LongDeed η σ Unit) := by
      intro s _
      have hnews : Announces [.serverAdded] key s
          (Deed.announce (({ kind := .serverAdded } : Event).withServer key) s).2 :=
        announce_announces (List.mem_singleton_self (EventKind.serverAdded)) rfl s
      exact ⟨{}, .welcomes key hnews, rfl⟩
    refine meets_bind hwelcome ?_
    rintro _ ⟨⟩ rfl
    exact (rfl : ({} : Debt) = {})
  · cases placement with
    | stored h => exact absurd rfl (hnot h)
    | refused | panicked => exact (rfl : ({} : Debt) = {})
    | found h =>
      refine meets_bind (meets_working fun s _ => touchUnlessLocked_works H h s) ?_
      rintro _ ⟨⟩ rfl
      exact (rfl : ({} : Debt) = {})

/-! ### Taking out -/

theorem extract_deals (p : String × Handle → Bool) (s : Site η σ) :
    Deal discreet {} s
      { mine := (s.collection.entries.filter p).map Prod.snd
        running := s.collection.entries.filter p }
      { s with collection := (s.collection.extract p).2 } :=
  .takes p ⟨rfl, rfl, rfl, fun _ => rfl, rfl⟩

/-- The debt of a call that has taken entries out and has come so far with them. -/
def Debt.ofTaken (taken rest : List (String × Handle)) : Debt :=
  { mine := taken.map Prod.snd, running := rest }

theorem Debt.ofTaken_paid (taken : List (String × Handle)) : (Debt.ofTaken taken []).Paid :=
  ⟨rfl, rfl, rfl⟩

/-- What is stored under a key is all that there is under it. -/
theorem filter_key {entries : List (String × Handle)} (hnodup : (entries.map Prod.fst).Nodup)
    (key : String) :
    entries.filter (fun entry => entry.1 == key) =
      (entries.lookup key).toList.map fun h => (key, h) := by
  induction entries with
  | nil => rfl
  | cons entry rest ih =>
    obtain ⟨k, h⟩ := entry
    obtain ⟨hnot, hrest⟩ := List.nodup_cons.1 hnodup
    by_cases hk : k = key
    · subst hk
      have hnone : rest.filter (fun entry => entry.1 == k) = [] := by
        rw [List.filter_eq_nil_iff]
        intro entry hentry heq
        exact hnot (List.mem_map.2 ⟨entry, hentry, by simpa using heq⟩)
      simp [hnone]
    · have hk' : (key == k) = false := beq_false_of_ne fun h => hk h.symm
      simp [List.lookup_cons, hk, hk', ih hrest]

theorem take_meets (key : String) :
    Meets (terms discreet)
      (fun d a => d = .ofTaken (a.toList.map fun h => (key, h)) (a.toList.map fun h => (key, h))) {}
      (atOnce (take key) : LongDeed η σ (Option Handle)) := by
  intro s hs
  refine ⟨_, extract_deals (fun entry => entry.1 == key) s, ?_⟩
  rw [filter_key hs.keys_nodup]
  exact (rfl : Debt.ofTaken _ _ = Debt.ofTaken _ _)

theorem delete_meets (key : String) :
    Meets (terms discreet) (fun d _ => d.Paid) {} (Collection.delete H key : LongDeed η σ _) := by
  refine meets_bind (take_meets key) ?_
  rintro _ (_ | h) rfl
  · exact Debt.ofTaken_paid []
  · refine meets_bind (stopSlot_meets H key h) ?_
    rintro _ _ ⟨rfl, tier, rfl⟩
    refine meets_bind (meets_clearing (.head _) rfl) ?_
    rintro _ ⟨⟩ rfl
    exact Debt.ofTaken_paid [(key, h)]

theorem takeIdle_meets (now : Instant) :
    Meets (terms discreet)
      (fun d a => (∃ p, a = .error p ∧ d = {}) ∨ ∃ idle, a = .ok idle ∧ d = .ofTaken idle idle) {}
      (atOnce (takeIdle now) : LongDeed η σ _) := by
  intro s hs
  cases hpanic : s.collection.idlePanic? with
  | some p =>
    have hrun : takeIdle now s = (.error p, s) := by rw [takeIdle, hpanic]
    simp only [hrun]
    exact ⟨{}, .works (.refl s), .inl ⟨p, rfl, rfl⟩⟩
  | none =>
    have hrun : takeIdle now s =
        (.ok (s.collection.entries.filter (s.collection.isIdle now)),
          { s with collection := (s.collection.extract (s.collection.isIdle now)).2 }) := by
      rw [takeIdle, hpanic]
      rfl
    simp only [hrun]
    exact ⟨_, extract_deals _ s, .inr ⟨_, rfl, rfl⟩⟩

theorem cleanIdle_meets :
    Meets (terms discreet) (fun d _ => d.Paid) {} (Collection.cleanIdle H : LongDeed η σ _) := by
  refine meets_bind (meets_working fun s _ => .refl s) ?_
  rintro _ s rfl
  refine meets_bind (takeIdle_meets _) ?_
  rintro _ _ (⟨p, rfl, rfl⟩ | ⟨idle, rfl, rfl⟩)
  · exact Debt.ofTaken_paid []
  · refine meets_bind (meets_forM (Debt.ofTaken idle) ?_ idle) ?_
    · rintro ⟨key, h⟩ rest
      exact retire_meets H rest key h
    · rintro _ ⟨⟩ rfl
      exact Debt.ofTaken_paid idle

theorem takeAll_meets :
    Meets (terms discreet) (fun d all => d = .ofTaken all all) {}
      (atOnce takeAll : LongDeed η σ _) := fun s _ => ⟨_, extract_deals (fun _ => true) s, rfl⟩

theorem cancel_works (s : Site η σ) :
    Works discreet mine s { s with collection := { s.collection with cancelled := true } } :=
  ⟨⟨rfl, rfl, rfl, fun _ => Nat.le_refl _, fun _ _ => rfl⟩, fun _ =>
    ⟨[], (List.append_nil _).symm, List.forall_mem_nil _⟩⟩

theorem cleanup_meets :
    Meets (terms discreet) (fun d _ => d.Paid) {} (Collection.cleanup H : LongDeed η σ _) := by
  refine meets_bind (meets_working fun s _ => cancel_works s) ?_
  rintro _ ⟨⟩ rfl
  refine meets_bind takeAll_meets ?_
  rintro _ all rfl
  refine (meets_forM (Debt.ofTaken all) ?_ all).imp ?_
  · rintro ⟨key, h⟩ rest
    exact discard_meets H rest key h
  · rintro _ ⟨⟩ rfl
    exact Debt.ofTaken_paid all

/-! ### All calls -/

/-- What a call has to do when it is begun. -/
def Call.debt : Call η σ → Debt
  | use h _ => { mine := [h] }
  | _ => {}

/-- **Every call pays its debts**, whatever others do meanwhile. -/
theorem Call.meets (call : Call η σ) (hdiscreet : discreet → call.Discreet) :
    Meets (terms discreet) (fun d _ => d.Paid) call.debt (call.deed H) := by
  cases call with
  | lookupOrAdd key factory =>
    refine meets_bind (lookupOrAdd_meets H hdiscreet) ?_
    rintro _ _ rfl
    exact Debt.ofTaken_paid []
  | delete key => exact meets_bind (delete_meets H key) fun _ _ hpaid => hpaid
  | cleanIdle => exact meets_bind (cleanIdle_meets H) fun _ _ hpaid => hpaid
  | cleanup => exact meets_bind (cleanup_meets H) fun _ _ hpaid => hpaid
  | use h operations =>
    have hact : Each Onward (fun _ => True)
        (operations.forM (Supervisor.Operation.act H) : LongAct η σ Unit) :=
      each_forM (Supervisor.Operation.act_onward H) operations
    refine meets_bind (meets_holding (meets_on H hact (List.mem_singleton_self h))) ?_
    rintro _ _ ⟨rfl, -⟩
    exact show Debt.Paid { mine := [h] } from ⟨rfl, rfl, rfl⟩

end

end Collection

end Overseer
