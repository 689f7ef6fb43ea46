import Overseer.Proofs.Collection.Debts
import Mathlib.Algebra.GroupWithZero.Nat
import Mathlib.Data.List.Perm.Basic
import Mathlib.Data.List.Nodup

/-!
# The accounts of a collection

However the calls on a collection come between each other, each supervisor that was ever stored is
stored now, under one key, or was taken out by one call, which stops it (`Traffic.InOrder`); and
once no call is in progress, what was announced of a key is what became of its servers
(`Traffic.Balances`). The `Ledger` carries the proof: it has the debt of each call, and is kept by
every turn because each section of a call is a `Deal`.
-/

namespace Overseer

namespace Collection

variable {η σ : Type} (H : Host η) {discreet : Prop}

namespace Traffic

/-- What is true of a collection and its record at any time. -/
structure InOrder (t : Traffic η σ) : Prop where
  /-- Nothing is stored twice under a key. -/
  keys_nodup : (t.site.collection.entries.map Prod.fst).Nodup
  /-- Every supervisor that was ever stored is stored now, or was taken out: it is in one of these
  places, and is there once. -/
  handles_perm : (t.site.collection.entries.map Prod.snd ++ t.removed.map Prod.snd).Perm
    (List.range t.site.collection.slots.length)
  /-- No two calls take the same supervisor out, and none does so twice. -/
  removed_nodup : (t.removed.map Prod.snd).Nodup
  /-- What a call took out is stopped when it is over: the call has stopped it, unless one who used
  it has. -/
  stopped_of_over : ∀ i h c, (i, h) ∈ t.removed → t.calls[i]? = some c → c.isOver = true →
    t.site.isStopped h = true ∧ ((i, h) ∈ t.stopped ∨
      ∃ j operations rest, (j, h) ∈ t.stopped ∧ t.calls[j]? = some ⟨.use h operations, rest⟩)
  /-- Nothing was dropped without being stopped, once no call is in progress. -/
  stopped_of_quiet : t.Quiet → ∀ h, h < t.site.collection.slots.length →
    t.site.isStored h = true ∨ t.site.isStopped h = true

/-- What a collection has announced, if that is heard: once no call is in progress, each server that
was added under a key is stored under it or was announced as gone. -/
def Balances (t : Traffic η σ) : Prop :=
  t.site.collection.announces = true → t.Quiet → ∀ key,
    t.site.announced .serverAdded key =
      t.site.announced .serverRemoved key + t.site.announced .idleCleaned key +
        if t.site.collection.contains key then 1 else 0

end Traffic

/-- A call with its debt. -/
structure Account (η σ : Type) where
  ongoing : Ongoing η σ
  debt : Debt

/-- How many entries of a key a call has taken out without having announced it yet. -/
def Debt.owed (d : Debt) (key : String) : Nat :=
  (d.running.map Prod.fst).count key + d.gone.count key

/-- The accounts of all calls, that fit what has happened. -/
structure Ledger (discreet : Prop) (t : Traffic η σ) (accounts : List (Account η σ)) : Prop where
  calls_eq : t.calls = accounts.map Account.ongoing
  meets : ∀ a ∈ accounts, Activity.Meets (terms discreet) (fun d _ => d.Paid) a.debt a.ongoing.rest
  keys_nodup : (t.site.collection.entries.map Prod.fst).Nodup
  handles_perm : (t.site.collection.entries.map Prod.snd ++ t.removed.map Prod.snd).Perm
    (List.range t.site.size)
  born : ∀ h, h < t.site.size → 1 ≤ t.site.stage h
  /-- What a call may stop it took out, or it is one who uses it. -/
  mine : ∀ i a, accounts[i]? = some a → ∀ h ∈ a.debt.mine,
    (i, h) ∈ t.removed ∨ ∃ operations, a.ongoing.call = .use h operations
  /-- What a call is to stop it took out. -/
  running : ∀ i a, accounts[i]? = some a → ∀ entry ∈ a.debt.running,
    entry.2 ∈ a.debt.mine ∧ (i, entry.2) ∈ t.removed
  /-- What a call took out it is to stop, or it is stopped. -/
  settled : ∀ i h, (i, h) ∈ t.removed → t.site.stage h = 2 ∨
    ∃ a, accounts[i]? = some a ∧ h ∈ a.debt.running.map Prod.snd
  stopped_by : ∀ i h, (i, h) ∈ t.stopped → (i, h) ∈ t.removed ∨
    ∃ a operations, accounts[i]? = some a ∧ a.ongoing.call = .use h operations
  stopped_known : ∀ h, t.site.stage h = 2 → ∃ i, (i, h) ∈ t.stopped
  balance : discreet → t.site.collection.announces = true → ∀ key,
    t.site.announced .serverAdded key + (accounts.map fun a => a.debt.added.count key).sum =
      t.site.announced .serverRemoved key + t.site.announced .idleCleaned key +
        (accounts.map fun a => a.debt.owed key).sum +
          (t.site.collection.entries.map Prod.fst).count key

/-! ## Looking at a site -/

section
variable {s s' : Site η σ}

/-- The handles that are stored. -/
abbrev handles (s : Site η σ) : List Handle := s.collection.entries.map Prod.snd

/-- The keys under which something is stored. -/
abbrev storedKeys (s : Site η σ) : List String := s.collection.entries.map Prod.fst

theorem contains_iff {c : Collection σ} {key : String} :
    c.contains key = true ↔ key ∈ c.entries.map Prod.fst := by
  rw [contains, handle?, Option.isSome_iff_ne_none, Ne, List.lookup_eq_none_iff]
  simp

theorem isStored_iff {h : Handle} : s.isStored h = true ↔ h ∈ handles s := by
  simp [Site.isStored]

theorem stage_of_size_le {h : Handle} (hle : s.size ≤ h) : s.stage h = 0 := by
  have hnone : s.collection.slot? h = none := List.getElem?_eq_none hle
  simp [Site.stage, hnone]

theorem removedBy_of_subset (h : handles s ⊆ handles s') : s.removedBy s' = [] := by
  rw [Site.removedBy, List.filter_eq_nil_iff]
  intro k hk
  simpa using isStored_iff.2 (h hk)

theorem Keeps.removedBy {mine : List Handle} (h : Keeps mine s s') : s.removedBy s' = [] :=
  removedBy_of_subset (by rw [handles, handles, h.entries_eq]; exact List.Subset.refl _)

theorem removedBy_of_filter {p : String × Handle → Bool} (hnodup : (handles s).Nodup)
    (hentries : s'.collection.entries = s.collection.entries.filter fun entry => !p entry) :
    s.removedBy s' = (s.collection.entries.filter p).map Prod.snd := by
  have hp : ∀ entry ∈ s.collection.entries, s'.isStored entry.2 = !p entry := by
    intro entry hentry
    rw [Bool.eq_iff_iff, isStored_iff, handles, hentries, List.mem_map]
    constructor
    · rintro ⟨other, hother, heq⟩
      obtain ⟨hmem, hother⟩ := List.mem_filter.1 hother
      rwa [← List.inj_on_of_nodup_map hnodup hmem hentry heq]
    · exact fun hnot => ⟨entry, List.mem_filter.2 ⟨hentry, hnot⟩, rfl⟩
  rw [Site.removedBy, List.filter_map]
  refine congrArg (List.map Prod.snd) (List.filter_congr fun entry hentry => ?_)
  simp [hp entry hentry]

theorem mem_stoppedBy {h : Handle} : h ∈ s.stoppedBy s' ↔ s.stage h ≠ 2 ∧ s'.stage h = 2 := by
  rw [Site.stoppedBy, List.mem_filter]
  simp only [Bool.and_eq_true, Bool.not_eq_true', ← Bool.not_eq_true, Site.isStopped_iff]
  refine ⟨And.right, fun hstages => ⟨List.mem_range.2 (Nat.lt_of_not_le fun hle => ?_), hstages⟩⟩
  exact absurd (stage_of_size_le hle) (by rw [hstages.2]; decide)

theorem Hushed.announced_eq {kind : EventKind} (h : Hushed s s')
    (hkind : kind.isOfCollection = true) (key : String) :
    s'.announced kind key = s.announced kind key := by
  obtain ⟨news, hnews, hkinds⟩ := h
  rw [Site.announced, hnews, List.countP_append, Site.announced, Nat.add_eq_left,
    List.countP_eq_zero]
  intro e he heq
  have hk : e.kind = kind := eq_of_beq (Bool.and_eq_true_iff.1 heq).1
  rw [← hk, hkinds e he] at hkind
  cases hkind

theorem announced_snoc {e : Event} (h : s'.events = s.events ++ [e]) (kind : EventKind)
    (key : String) :
    s'.announced kind key =
      s.announced kind key + if e.kind = kind ∧ e.server = some key then 1 else 0 := by
  rw [Site.announced, h, List.countP_append, Site.announced, List.countP_singleton]
  simp

end

/-! ## What deals do -/

namespace Deal

variable {s s' : Site η σ} {d d' : Debt}

/-- **What becomes of a site** in a section: supervisors work, one is stored, or some are taken
out. -/
theorem effect (deal : Deal discreet d s d' s') :
    Keeps d.mine s s' ∨ (∃ key, Stores key s s') ∨ ∃ p, Takes p s s' := by
  cases deal with
  | works h => exact .inl h.toKeeps
  | stores key h hhushed => exact .inr (.inl ⟨key, h⟩)
  | welcomes key h => exact .inl h.keeps
  | takes p h => exact .inr (.inr ⟨p, h⟩)
  | stops key h hworks hstopped => exact .inl hworks.toKeeps
  | clears key h => exact .inl h.keeps

theorem announces_eq (deal : Deal discreet d s d' s') :
    s'.collection.announces = s.collection.announces := by
  obtain h | ⟨key, h⟩ | ⟨p, h⟩ := deal.effect <;> exact h.announces_eq

theorem stage_le (deal : Deal discreet d s d' s') (k : Handle) : s.stage k ≤ s'.stage k := by
  obtain h | ⟨key, h⟩ | ⟨p, h⟩ := deal.effect
  · exact h.stage_le k
  · obtain rfl | hk := eq_or_ne k s.size
    · rw [stage_of_size_le (Nat.le_refl _)]
      exact Nat.zero_le _
    · exact Nat.le_of_eq (h.stage_eq k hk).symm
  · exact Nat.le_of_eq (h.stage_eq k).symm

theorem born (deal : Deal discreet d s d' s') (hborn : ∀ k, k < s.size → 1 ≤ s.stage k) :
    ∀ k, k < s'.size → 1 ≤ s'.stage k := by
  intro k hk
  by_cases hlt : k < s.size
  · exact Nat.le_trans (hborn k hlt) (deal.stage_le k)
  · obtain h | ⟨key, h⟩ | ⟨p, h⟩ := deal.effect
    · exact absurd (h.size_eq ▸ hk) hlt
    · have hnew : k = s.size := by
        rw [h.size_eq] at hk
        omega
      exact hnew ▸ Nat.le_of_eq h.stage_new.symm
    · exact absurd (h.size_eq ▸ hk) hlt

/-- Only what a call may stop is stopped in its sections. -/
theorem mem_mine (deal : Deal discreet d s d' s') {k : Handle} (hstopped : k ∈ s.stoppedBy s') :
    k ∈ d.mine := by
  obtain ⟨hold, hnew⟩ := mem_stoppedBy.1 hstopped
  by_contra hmine
  refine hold ?_
  rw [← hnew]
  obtain h | ⟨key, h⟩ | ⟨p, h⟩ := deal.effect
  · exact (h.stage_eq k hmine).symm
  · obtain rfl | hk := eq_or_ne k s.size
    · rw [h.stage_new] at hnew
      cases hnew
    · exact (h.stage_eq k hk).symm
  · exact (h.stage_eq k).symm

theorem keys_nodup (deal : Deal discreet d s d' s') (hnodup : (storedKeys s).Nodup) :
    (storedKeys s').Nodup := by
  obtain h | ⟨key, h⟩ | ⟨p, h⟩ := deal.effect
  · rwa [storedKeys, h.entries_eq]
  · have hfree : key ∉ storedKeys s := fun hmem => by
      rw [← contains_iff, h.free] at hmem
      cases hmem
    rw [storedKeys, h.entries_eq, List.map_append]
    exact hnodup.append (List.nodup_singleton key) (List.disjoint_singleton.2 hfree)
  · rw [storedKeys, h.entries_eq]
    exact hnodup.sublist (List.filter_sublist.map _)

/-- Each handle is where it was before, or was moved from what is stored to what was taken out. -/
theorem handles_perm (deal : Deal discreet d s d' s') {removed : List Handle}
    (hperm : (handles s ++ removed).Perm (List.range s.size)) :
    (handles s' ++ (removed ++ s.removedBy s')).Perm (List.range s'.size) := by
  obtain h | ⟨key, h⟩ | ⟨p, h⟩ := deal.effect
  · rwa [h.removedBy, List.append_nil, h.size_eq, handles, h.entries_eq]
  · have hremoved : s.removedBy s' = [] := removedBy_of_subset (by
      rw [handles, handles, h.entries_eq, List.map_append]
      exact List.subset_append_left _ _)
    rw [hremoved, List.append_nil, h.size_eq, handles, h.entries_eq, List.map_append,
      List.range_succ, List.append_assoc]
    refine (List.perm_append_comm.append_left _).trans ?_
    rw [← List.append_assoc]
    exact hperm.append_right _
  · have hnodup : (handles s).Nodup :=
      (hperm.nodup_iff.2 List.nodup_range).sublist (List.sublist_append_left _ _)
    rw [removedBy_of_filter hnodup h.entries_eq, h.size_eq, handles, h.entries_eq]
    have hsplit : ((s.collection.entries.filter p).map Prod.snd ++
        (s.collection.entries.filter fun entry => !p entry).map Prod.snd).Perm (handles s) := by
      rw [← List.map_append]
      exact (List.filter_append_perm p _).map _
    refine .trans ?_ hperm
    refine List.perm_append_comm.trans (.trans ?_ List.perm_append_comm)
    rw [List.append_assoc]
    exact hsplit.append_left _

/-- What becomes of a debt in a section: the call has no more to stop than before, and what it has
not to stop any more is stopped; or it is to stop what was taken out. -/
theorem debt (deal : Deal discreet d s d' s') (hnodup : (handles s).Nodup) :
    (s.removedBy s' = [] ∧ d'.mine = d.mine ∧ d'.running ⊆ d.running ∧
        ∀ entry ∈ d.running, entry ∈ d'.running ∨ s'.stage entry.2 = 2) ∨
      d = {} ∧ d'.mine = s.removedBy s' ∧ d'.running.map Prod.snd = s.removedBy s' := by
  cases deal with
  | works h => exact .inl ⟨h.removedBy, rfl, List.Subset.refl _, fun _ => .inl⟩
  | stores key h hhushed =>
    refine .inl ⟨removedBy_of_subset ?_, rfl, List.Subset.refl _, fun _ => .inl⟩
    rw [handles, handles, h.entries_eq, List.map_append]
    exact List.subset_append_left _ _
  | welcomes key h =>
    exact .inl ⟨(h.keeps : Keeps [] s s').removedBy, rfl, List.Subset.refl _, fun _ => .inl⟩
  | takes p h =>
    rw [removedBy_of_filter hnodup h.entries_eq]
    exact .inr ⟨rfl, rfl, rfl⟩
  | stops key k hworks hstopped =>
    refine .inl ⟨hworks.removedBy, rfl, List.subset_cons_self _ _, fun entry hentry => ?_⟩
    obtain rfl | hentry := List.mem_cons.1 hentry
    · exact .inr hstopped
    · exact .inl hentry
  | clears key h =>
    exact .inl ⟨(h.keeps : Keeps [] s s').removedBy, rfl, List.Subset.refl _, fun _ => .inl⟩

/-- The balance of a section. -/
theorem balance (deal : Deal discreet d s d' s') (hdiscreet : discreet)
    (hannounces : s.collection.announces = true) (key : String) :
    s'.announced .serverAdded key + d'.added.count key +
        (s.announced .serverRemoved key + s.announced .idleCleaned key + d.owed key +
          (storedKeys s).count key) =
      s.announced .serverAdded key + d.added.count key +
        (s'.announced .serverRemoved key + s'.announced .idleCleaned key + d'.owed key +
          (storedKeys s').count key) := by
  have hhush (h : Hushed s s') (kind : EventKind) (hkind : kind.isOfCollection = true) :=
    h.announced_eq hkind key
  cases deal with
  | works h =>
    rw [hhush (h.hushed hdiscreet) _ rfl, hhush (h.hushed hdiscreet) _ rfl,
      hhush (h.hushed hdiscreet) _ rfl, storedKeys, storedKeys, h.entries_eq]
  | stores k h hhushed =>
    rw [hhush (hhushed hdiscreet) _ rfl, hhush (hhushed hdiscreet) _ rfl,
      hhush (hhushed hdiscreet) _ rfl, storedKeys, storedKeys, h.entries_eq]
    simp only [Debt.owed, List.map_append, List.map_cons, List.map_nil, List.count_append,
      List.count_nil]
    omega
  | welcomes k h =>
    obtain ⟨e, hevents, hkind, hserver⟩ := h.news hannounces
    have hk : e.kind = .serverAdded := List.mem_singleton.1 hkind
    simp only [announced_snoc hevents, hk, hserver, storedKeys, h.collection_eq, Debt.owed,
      Option.some.injEq, reduceCtorEq, false_and, true_and, if_false, List.map_nil,
      List.count_singleton, List.count_nil, beq_iff_eq]
    omega
  | takes p h =>
    have hannounced (kind : EventKind) : s'.announced kind key = s.announced kind key := by
      rw [Site.announced, h.events_eq, Site.announced]
    have hsplit : (storedKeys s).count key =
        ((s.collection.entries.filter p).map Prod.fst).count key + (storedKeys s').count key := by
      rw [storedKeys, storedKeys, h.entries_eq, ← List.count_append, ← List.map_append]
      exact (((List.filter_append_perm p _).map _).count_eq key).symm
    simp only [hannounced, hsplit, Debt.owed, List.map_nil, List.count_nil]
    omega
  | stops k h hworks hstopped =>
    rw [hhush (hworks.hushed hdiscreet) _ rfl, hhush (hworks.hushed hdiscreet) _ rfl,
      hhush (hworks.hushed hdiscreet) _ rfl, storedKeys, storedKeys, hworks.entries_eq]
    simp only [Debt.owed, List.map_cons, List.count_cons, List.count_nil]
    omega
  | clears k h =>
    obtain ⟨e, hevents, hkind, hserver⟩ := h.news hannounces
    obtain hk | hk := List.mem_pair.1 hkind <;>
      simp only [announced_snoc hevents, hk, hserver, storedKeys, h.collection_eq, Debt.owed,
        Option.some.injEq, reduceCtorEq, false_and, true_and, if_false, List.count_singleton,
        List.count_nil, beq_iff_eq] <;>
      omega

end Deal

/-! ## The ledger -/

/-- A sum over a list, one element of which was replaced. -/
theorem sum_map_set {α : Type} (f : α → Nat) {xs : List α} {i : Nat} {x : α} (h : xs[i]? = some x)
    (y : α) : ((xs.set i y).map f).sum + f x = (xs.map f).sum + f y := by
  induction xs generalizing i with
  | nil => cases h
  | cons z xs ih =>
    cases i with
    | zero =>
      cases h
      simp only [List.set_cons_zero, List.map_cons, List.sum_cons]
      omega
    | succ i =>
      have := ih (i := i) h
      simp only [List.set_cons_succ, List.map_cons, List.sum_cons]
      omega

theorem stage_eq_two_of_le {s s' : Site η σ} {h : Handle} (hstage : s.stage h = 2)
    (hle : s.stage h ≤ s'.stage h) : s'.stage h = 2 :=
  Nat.le_antisymm (s'.stage_le_two h) (hstage ▸ hle)

theorem getElem?_concat {α : Type} {xs : List α} {x a : α} {i : Nat}
    (h : (xs ++ [x])[i]? = some a) : xs[i]? = some a ∨ a = x := by
  rw [List.getElem?_append] at h
  split at h
  · exact .inl h
  · exact .inr (List.mem_singleton.1 (List.mem_of_getElem? h))

theorem getElem?_append_of_some {α : Type} {xs ys : List α} {a : α} {i : Nat}
    (h : xs[i]? = some a) : (xs ++ ys)[i]? = some a := by
  rwa [List.getElem?_append_left (List.getElem?_eq_some_iff.1 h).1]

theorem getElem?_set_cases {α : Type} {xs : List α} {x a : α} {i j : Nat}
    (h : (xs.set i x)[j]? = some a) : (j = i ∧ a = x) ∨ (j ≠ i ∧ xs[j]? = some a) := by
  rw [List.getElem?_set] at h
  split at h
  · next hij =>
    split at h
    · exact .inl ⟨hij.symm, (Option.some.inj h).symm⟩
    · cases h
  · next hij => exact .inr ⟨fun hji => hij hji.symm, h⟩

namespace Ledger

variable {t : Traffic η σ} {accounts : List (Account η σ)}

theorem opening (announces : Bool) (host : η) :
    Ledger discreet (Traffic.opening announces host : Traffic η σ) [] where
  calls_eq := rfl
  meets := List.forall_mem_nil _
  keys_nodup := List.nodup_nil
  handles_perm := .nil
  born h hh := absurd hh (Nat.not_lt_zero h)
  mine _ _ h := by cases h
  running _ _ h := by cases h
  settled _ _ h := by cases h
  stopped_by _ _ h := by cases h
  stopped_known h hh := by cases hh
  balance _ _ key := rfl

theorem fits (l : Ledger discreet t accounts) {i : Nat} {a : Account η σ}
    (ha : accounts[i]? = some a) : Fits a.debt t.site where
  keys_nodup := l.keys_nodup
  born := l.born
  known entry hentry := by
    obtain ⟨hmine, hremoved⟩ := l.running i a ha entry hentry
    refine ⟨hmine, List.mem_range.1 (l.handles_perm.subset ?_)⟩
    exact List.mem_append_right _ (List.mem_map.2 ⟨_, hremoved, rfl⟩)

theorem begin (l : Ledger discreet t accounts) (call : Call η σ)
    (hdiscreet : discreet → call.Discreet) :
    Ledger discreet { t with calls := t.calls ++ [{ call, rest := call.deed H }] }
      (accounts ++ [⟨{ call, rest := call.deed H }, call.debt⟩]) where
  calls_eq := by rw [List.map_append, l.calls_eq]; rfl
  meets := List.forall_mem_append.2
    ⟨l.meets, List.forall_mem_singleton.2 (call.meets H hdiscreet)⟩
  keys_nodup := l.keys_nodup
  handles_perm := l.handles_perm
  born := l.born
  mine i a ha h hh := by
    obtain ha | rfl := getElem?_concat ha
    · exact l.mine i a ha h hh
    · cases call with
      | use k operations => exact .inr ⟨operations, List.mem_singleton.1 hh ▸ rfl⟩
      | lookupOrAdd | delete | cleanIdle | cleanup => cases hh
  running i a ha entry hentry := by
    obtain ha | rfl := getElem?_concat ha
    · exact l.running i a ha entry hentry
    · cases call <;> cases hentry
  settled i h hh := by
    obtain hstage | ⟨a, ha, hmem⟩ := l.settled i h hh
    · exact .inl hstage
    · exact .inr ⟨a, getElem?_append_of_some ha, hmem⟩
  stopped_by i h hh := by
    obtain hmem | ⟨a, operations, ha, hcall⟩ := l.stopped_by i h hh
    · exact .inl hmem
    · exact .inr ⟨a, operations, getElem?_append_of_some ha, hcall⟩
  stopped_known := l.stopped_known
  balance hd ha key := by
    have hdebt : call.debt.added = [] ∧ call.debt.owed key = 0 := by
      cases call <;> exact ⟨rfl, rfl⟩
    simpa [hdebt] using l.balance hd ha key

/-- **A section of a call** keeps the accounts, whichever of the deals it is. -/
theorem record (l : Ledger discreet t accounts) {i : Nat} {a : Account η σ}
    (ha : accounts[i]? = some a) {c : Ongoing η σ} (hcall : c.call = a.ongoing.call) {d : Debt}
    {s : Site η σ} (deal : Deal discreet a.debt t.site d s)
    (hmeets : Activity.Meets (terms discreet) (fun d _ => d.Paid) d c.rest) :
    Ledger discreet (t.record i c s) (accounts.set i ⟨c, d⟩) := by
  have hnodup : (handles t.site).Nodup :=
    (l.handles_perm.nodup_iff.2 List.nodup_range).sublist (List.sublist_append_left _ _)
  have hset : (accounts.set i ⟨c, d⟩)[i]? = some ⟨c, d⟩ :=
    List.getElem?_set_self (List.getElem?_eq_some_iff.1 ha).1
  have hrecorded : (t.record i c s).removed.map Prod.snd =
      t.removed.map Prod.snd ++ t.site.removedBy s := by
    simp [Traffic.record, Function.comp_def]
  constructor
  case calls_eq =>
    rw [Traffic.record, l.calls_eq, List.map_set]
  case meets =>
    intro b hb
    obtain hb | rfl := List.mem_or_eq_of_mem_set hb
    · exact l.meets b hb
    · exact hmeets
  case keys_nodup => exact deal.keys_nodup l.keys_nodup
  case handles_perm =>
    rw [hrecorded]
    exact deal.handles_perm l.handles_perm
  case born => exact deal.born l.born
  case mine =>
    intro j b hb h hh
    obtain ⟨rfl, rfl⟩ | ⟨hj, hb⟩ := getElem?_set_cases hb
    · obtain ⟨-, hmine, -⟩ | ⟨-, hmine, -⟩ := deal.debt hnodup
      · obtain hmem | ⟨operations, huse⟩ := l.mine j a ha h (hmine ▸ hh)
        · exact .inl (List.mem_append_left _ hmem)
        · exact .inr ⟨operations, hcall.trans huse⟩
      · exact .inl (List.mem_append_right _ (List.mem_map.2 ⟨h, hmine ▸ hh, rfl⟩))
    · obtain hmem | huse := l.mine j b hb h hh
      · exact .inl (List.mem_append_left _ hmem)
      · exact .inr huse
  case running =>
    intro j b hb entry hentry
    obtain ⟨rfl, rfl⟩ | ⟨hj, hb⟩ := getElem?_set_cases hb
    · obtain ⟨-, hmine, hsub, -⟩ | ⟨-, hmine, hrunning⟩ := deal.debt hnodup
      · obtain ⟨hold, hmem⟩ := l.running j a ha entry (hsub hentry)
        exact ⟨hmine ▸ hold, List.mem_append_left _ hmem⟩
      · have hmem : entry.2 ∈ t.site.removedBy s :=
          hrunning ▸ List.mem_map.2 ⟨entry, hentry, rfl⟩
        exact ⟨hmine ▸ hmem, List.mem_append_right _ (List.mem_map.2 ⟨_, hmem, rfl⟩)⟩
    · obtain ⟨hold, hmem⟩ := l.running j b hb entry hentry
      exact ⟨hold, List.mem_append_left _ hmem⟩
  case settled =>
    intro j h hh
    obtain hh | hh := List.mem_append.1 hh
    · obtain hstage | ⟨b, hb, hmem⟩ := l.settled j h hh
      · exact .inl (stage_eq_two_of_le hstage (deal.stage_le h))
      · by_cases hj : j = i
        · subst hj
          cases Option.some.inj (ha.symm.trans hb)
          obtain ⟨entry, hentry, rfl⟩ := List.mem_map.1 hmem
          obtain ⟨-, -, -, hrest⟩ | ⟨hnone, -⟩ := deal.debt hnodup
          · obtain hrest | hstage := hrest entry hentry
            · exact .inr ⟨_, hset, List.mem_map.2 ⟨entry, hrest, rfl⟩⟩
            · exact .inl hstage
          · rw [hnone] at hentry
            cases hentry
        · exact .inr ⟨b, by rw [List.getElem?_set_ne (Ne.symm hj), hb], hmem⟩
    · obtain ⟨k, hk, heq⟩ := List.mem_map.1 hh
      cases heq
      obtain ⟨hnone, -⟩ | ⟨-, -, hrunning⟩ := deal.debt hnodup
      · rw [hnone] at hk
        cases hk
      · exact .inr ⟨_, hset, hrunning ▸ hk⟩
  case stopped_by =>
    intro j h hh
    have hcalls {b : Account η σ} {operations : List (Supervisor.Operation η)} {j : Nat}
        (hb : accounts[j]? = some b) (huse : b.ongoing.call = .use h operations) :
        ∃ b operations, (accounts.set i ⟨c, d⟩)[j]? = some b ∧
          b.ongoing.call = .use h operations := by
      by_cases hj : j = i
      · subst hj
        cases Option.some.inj (ha.symm.trans hb)
        exact ⟨_, operations, hset, hcall.trans huse⟩
      · exact ⟨b, operations, by rw [List.getElem?_set_ne (Ne.symm hj), hb], huse⟩
    obtain hh | hh := List.mem_append.1 hh
    · obtain hmem | ⟨b, operations, hb, huse⟩ := l.stopped_by j h hh
      · exact .inl (List.mem_append_left _ hmem)
      · exact .inr (hcalls hb huse)
    · obtain ⟨k, hk, heq⟩ := List.mem_map.1 hh
      cases heq
      obtain hmem | ⟨operations, huse⟩ := l.mine i a ha h (deal.mem_mine hk)
      · exact .inl (List.mem_append_left _ hmem)
      · exact .inr (hcalls ha huse)
  case stopped_known =>
    intro h hh
    by_cases hold : t.site.stage h = 2
    · obtain ⟨j, hj⟩ := l.stopped_known h hold
      exact ⟨j, List.mem_append_left _ hj⟩
    · exact ⟨i, List.mem_append_right _ (List.mem_map.2 ⟨h, mem_stoppedBy.2 ⟨hold, hh⟩, rfl⟩)⟩
  case balance =>
    intro hd hannounces key
    have hannounces' : t.site.collection.announces = true :=
      deal.announces_eq.symm.trans hannounces
    have hdeal := deal.balance hd hannounces' key
    have hledger := l.balance hd hannounces' key
    have hadded := sum_map_set (fun a : Account η σ => a.debt.added.count key) ha ⟨c, d⟩
    have howed := sum_map_set (fun a : Account η σ => a.debt.owed key) ha ⟨c, d⟩
    simp only [Traffic.record, storedKeys] at hdeal hledger hadded howed ⊢
    omega

/-- Whatever is waited for, to be granted it is work. -/
theorem grant_works {what : Wait} {s s' : Site η σ} {mine : List Handle}
    (h : Site.grant H what s = some s') : Works discreet mine s s' := by
  cases what with
  | clock time =>
    rw [Site.grant] at h
    split at h
    · cases h
      exact .refl s
    · cases h
  | lock k =>
    rw [Site.grant] at h
    split at h
    · cases h
    · cases h
      exact setLocked_works k true s
  | panicked p => cases h

/-- **What a turn does to the accounts.** A call is begun that owes nothing to be announced, or
nothing happens; or one of the calls makes a deal. -/
theorem take_cases (l : Ledger discreet t accounts) (turn : Turn η σ)
    (hdiscreet : ∀ call, turn = .begin call → discreet → call.Discreet) :
    ∃ accounts', Ledger discreet (t.take H turn) accounts' ∧
      (((t.take H turn).site.collection = t.site.collection ∧
          (t.take H turn).site.events = t.site.events ∧
          ∃ begun, accounts' = accounts ++ begun ∧ ∀ a ∈ begun, a.debt.added = []) ∨
        ∃ i a c d, accounts[i]? = some a ∧ accounts' = accounts.set i ⟨c, d⟩ ∧
          Deal discreet a.debt t.site d (t.take H turn).site) := by
  have hidle : ∃ begun, accounts = accounts ++ begun ∧ ∀ a ∈ begun, a.debt.added = [] :=
    ⟨[], (List.append_nil _).symm, List.forall_mem_nil _⟩
  cases turn with
  | begin call =>
    refine ⟨_, l.begin H call (hdiscreet call rfl), .inl ⟨rfl, rfl, _, rfl, ?_⟩⟩
    refine List.forall_mem_singleton.2 ?_
    cases call <;> rfl
  | host change =>
    exact ⟨accounts, ⟨l.calls_eq, l.meets, l.keys_nodup, l.handles_perm, l.born, l.mine, l.running,
      l.settled, l.stopped_by, l.stopped_known, l.balance⟩, .inl ⟨rfl, rfl, hidle⟩⟩
  | goOn i =>
    rw [Traffic.take, l.calls_eq, List.getElem?_map]
    cases ha : accounts[i]? with
    | none => exact ⟨accounts, l, .inl ⟨rfl, rfl, hidle⟩⟩
    | some a =>
      have hmeets := l.meets a (List.mem_of_getElem? ha)
      simp only [Option.map_some]
      cases hrest : a.ongoing.rest with
      | done answer => exact ⟨accounts, l, .inl ⟨rfl, rfl, hidle⟩⟩
      | step change next =>
        rw [hrest] at hmeets
        obtain ⟨d, deal, hnext⟩ := hmeets t.site (l.fits ha)
        exact ⟨_, l.record (c := ⟨a.ongoing.call, next t.site⟩) ha rfl deal hnext,
          .inr ⟨i, a, _, d, ha, rfl, deal⟩⟩
      | wait what next =>
        rw [hrest] at hmeets
        simp only
        cases hgrant : Site.grant H what t.site with
        | none => exact ⟨accounts, l, .inl ⟨rfl, rfl, hidle⟩⟩
        | some s =>
          have deal : Deal discreet a.debt t.site a.debt s := .works (grant_works H hgrant)
          exact ⟨_, l.record (c := ⟨a.ongoing.call, next⟩) ha rfl deal hmeets,
            .inr ⟨i, a, _, _, ha, rfl, deal⟩⟩

/-- **Every turn** keeps the accounts. -/
theorem take (l : Ledger discreet t accounts) (turn : Turn η σ)
    (hdiscreet : ∀ call, turn = .begin call → discreet → call.Discreet) :
    ∃ accounts', Ledger discreet (t.take H turn) accounts' :=
  (l.take_cases H turn hdiscreet).imp fun _ => And.left

theorem play (l : Ledger discreet t accounts) (turns : List (Turn η σ))
    (hdiscreet : ∀ call, .begin call ∈ turns → discreet → call.Discreet) :
    ∃ accounts', Ledger discreet (t.play H turns) accounts' := by
  induction turns generalizing t accounts with
  | nil => exact ⟨accounts, l⟩
  | cons turn turns ih =>
    obtain ⟨accounts', l'⟩ := l.take H turn fun call hcall =>
      hdiscreet call (hcall ▸ List.mem_cons_self)
    exact ih l' fun call hcall => hdiscreet call (List.mem_cons_of_mem _ hcall)

end Ledger

/-! ## The accounts at any time -/

namespace Ledger

variable {t : Traffic η σ} {accounts : List (Account η σ)}

theorem mem_calls (l : Ledger discreet t accounts) {i : Nat} {a : Account η σ}
    (ha : accounts[i]? = some a) : a.ongoing ∈ t.calls := by
  rw [l.calls_eq]
  exact List.mem_map.2 ⟨a, List.mem_of_getElem? ha, rfl⟩

theorem paid (l : Ledger discreet t accounts) {i : Nat} {a : Account η σ}
    (ha : accounts[i]? = some a) (hover : a.ongoing.isOver = true) : a.debt.Paid := by
  have hmeets := l.meets a (List.mem_of_getElem? ha)
  rw [Ongoing.isOver] at hover
  split at hover
  · next answer hrest => rwa [hrest] at hmeets
  · next p answer hrest => rwa [hrest] at hmeets
  · cases hover

theorem stage_of_over (l : Ledger discreet t accounts) {i : Nat} {h : Handle} {c : Ongoing η σ}
    (hremoved : (i, h) ∈ t.removed) (hc : t.calls[i]? = some c) (hover : c.isOver = true) :
    t.site.stage h = 2 := by
  obtain hstage | ⟨a, ha, hmem⟩ := l.settled i h hremoved
  · exact hstage
  · rw [l.calls_eq, List.getElem?_map, ha] at hc
    cases hc
    obtain ⟨-, hrunning, -⟩ := l.paid ha hover
    rw [hrunning] at hmem
    cases hmem

theorem removed_nodup (l : Ledger discreet t accounts) : (t.removed.map Prod.snd).Nodup :=
  (l.handles_perm.nodup_iff.2 List.nodup_range).sublist (List.sublist_append_right _ _)

/-- Nobody else took out what a call took out. -/
theorem removed_unique (l : Ledger discreet t accounts) {i j : Nat} {h : Handle}
    (hi : (i, h) ∈ t.removed) (hj : (j, h) ∈ t.removed) : i = j :=
  congrArg Prod.fst (List.inj_on_of_nodup_map l.removed_nodup hi hj rfl)

theorem inOrder (l : Ledger discreet t accounts) : t.InOrder where
  keys_nodup := l.keys_nodup
  handles_perm := l.handles_perm
  removed_nodup := l.removed_nodup
  stopped_of_over i h c hremoved hc hover := by
    have hstage := l.stage_of_over hremoved hc hover
    refine ⟨Site.isStopped_iff.2 hstage, ?_⟩
    obtain ⟨j, hj⟩ := l.stopped_known h hstage
    obtain hmem | ⟨a, operations, ha, huse⟩ := l.stopped_by j h hj
    · rw [l.removed_unique hremoved hmem]
      exact .inl hj
    · refine .inr ⟨j, operations, a.ongoing.rest, hj, ?_⟩
      rw [l.calls_eq, List.getElem?_map, ha, ← huse]
      rfl
  stopped_of_quiet hquiet h hh := by
    have hmem := l.handles_perm.symm.subset (List.mem_range.2 hh)
    obtain hmem | hmem := List.mem_append.1 hmem
    · exact .inl (isStored_iff.2 hmem)
    · obtain ⟨⟨i, k⟩, hremoved, rfl⟩ := List.mem_map.1 hmem
      refine .inr (Site.isStopped_iff.2 ?_)
      obtain hstage | ⟨a, ha, hmem⟩ := l.settled i k hremoved
      · exact hstage
      · obtain ⟨-, hrunning, -⟩ := l.paid ha (hquiet a.ongoing (l.mem_calls ha))
        rw [hrunning] at hmem
        cases hmem

theorem balances (l : Ledger True t accounts) : t.Balances := by
  intro hannounces hquiet key
  have hpaid : ∀ a ∈ accounts, a.debt.added.count key = 0 ∧ a.debt.owed key = 0 := by
    intro a ha
    obtain ⟨i, hi⟩ := List.getElem?_of_mem ha
    obtain ⟨hadded, hrunning, hgone⟩ := l.paid hi (hquiet a.ongoing (l.mem_calls hi))
    simp [Debt.owed, hadded, hrunning, hgone]
  have hadded : (accounts.map fun a => a.debt.added.count key).sum = 0 :=
    List.sum_eq_zero_iff_forall_eq_nat.2 (List.forall_mem_map.2 fun a ha => (hpaid a ha).1)
  have howed : (accounts.map fun a => a.debt.owed key).sum = 0 :=
    List.sum_eq_zero_iff_forall_eq_nat.2 (List.forall_mem_map.2 fun a ha => (hpaid a ha).2)
  have hstored : (storedKeys t.site).count key =
      if t.site.collection.contains key then 1 else 0 := by
    rw [l.keys_nodup.count]
    simp only [contains_iff]
  have hbalance := l.balance trivial hannounces key
  rw [hadded, howed, Nat.add_zero, Nat.add_zero] at hbalance
  rw [hbalance, hstored]

end Ledger

/-- **Collections keep their accounts**, however many calls there are and however they come between
each other. Nothing is stored or taken out twice, what a call has taken out is stopped when it is
over, and what was announced of a key is what became of its servers. -/
theorem accounts_in_order (announces : Bool) (host : η) (turns : List (Turn η σ)) :
    let t := (Traffic.opening announces host : Traffic η σ).play H turns
    t.InOrder ∧ ((∀ call, .begin call ∈ turns → call.Discreet) → t.Balances) := by
  refine ⟨?_, fun hdiscreet => ?_⟩
  · obtain ⟨accounts, l⟩ :=
      (Ledger.opening announces host).play H turns fun _ _ (h : False) => h.elim
    exact l.inOrder
  · obtain ⟨accounts, l⟩ :=
      (Ledger.opening announces host).play H turns fun call hcall _ => hdiscreet call hcall
    exact l.balances

/-- A host whose children go as soon as they are to. -/
def obliging : Host Unit where
  now _ := .origin
  sleep _ h := h
  openLine h := (.ok ⟨3, 4⟩, h)
  dropLine _ h := h
  fork _ _ h := (.ok 7, h)
  transport _ :=
    { carriesDescriptors := false
      write := fun h _ _ => (.error .brokenPipe, h)
      read := fun h _ => (some .atEnd, h)
      inflow := fun _ => 0
      stalls := fun _ => 0 }
  closeLine _ h := h
  reap _ h := (true, h)
  kill _ _ h := (false, h)

/-- Builds a supervisor of a server that does nothing. -/
def buildIdle : Factory Unit Unit := fun host =>
  (.ok { supervisor := .ofServer { name := fun _ => "idle" } () {} .origin }, [], host)

/-- Something new is stored under a key while the server that was under it is still being
stopped. -/
def replaced : List (Turn Unit Unit) :=
  [.begin (.lookupOrAdd "a" buildIdle), .goOn 0, .goOn 0, .begin (.delete "a"), .goOn 1,
    .begin (.lookupOrAdd "a" buildIdle), .goOn 2, .goOn 2] ++ List.replicate 9 (.goOn 1)

theorem accounts_in_order_replaced :
    let t := (Traffic.opening true ()).play obliging replaced
    t.Quiet ∧ t.removed = [(1, 0)] ∧ t.site.isStopped 0 = true ∧
      t.site.announced .serverAdded "a" =
        t.site.announced .serverRemoved "a" + t.site.announced .idleCleaned "a" + 1 := by
  obtain ⟨hinOrder, hbalances⟩ := accounts_in_order obliging true () replaced
  have hquiet : ((Traffic.opening true ()).play obliging replaced).Quiet := by
    rw [Traffic.Quiet]
    decide +kernel
  have hdiscreet : ∀ call, .begin call ∈ replaced → call.Discreet := by
    intro call hcall
    have hcall : call = .lookupOrAdd "a" buildIdle ∨ call = .delete "a" ∨
        call = .lookupOrAdd "a" buildIdle := by
      simpa [replaced] using hcall
    obtain rfl | rfl | rfl := hcall
    · exact fun _ => List.forall_mem_nil _
    · trivial
    · exact fun _ => List.forall_mem_nil _
  have hbalance := hbalances hdiscreet (by decide +kernel) hquiet "a"
  rw [if_pos (by decide +kernel)] at hbalance
  exact ⟨hquiet, by decide +kernel,
    (hinOrder.stopped_of_quiet hquiet 0 (by decide +kernel)).resolve_left (by decide +kernel),
    hbalance⟩

end Collection

end Overseer
