import CatalogSearch.Loading.Batch
import CatalogSearch.Proofs.Data.Batches
import CatalogSearch.Proofs.Data.OrderedMap
import CatalogSearch.Proofs.Loading.Hydration

/-!
# Loading without a cache

Whatever the size of the batches, under each id asked for there is its last record in the store
(`yields_load`). `Fetches` is what the two kinds of records have in common: what a batch fetches for
one of its ids is what the id alone fetches.
-/

namespace CatalogSearch

variable {ρ : Type} {s : Store}

/-- The records of a kind are fetched from the store in batches as one by one, if those of each id
are fit to be fetched. -/
structure RecordKind.Fetches (k : RecordKind ρ) (s : Store) (records : List Int → List ρ)
    (fit : Int → Prop) : Prop where
  isLocal : Store.Local k.id records
  yields : ∀ {ids : List Int} {rs : List ρ},
    Attempt.Yields s (k.fetch ids) (.ok rs) ↔ (∀ id ∈ ids, fit id) ∧ records ids = rs
  settled : ∀ ids, Attempt.Settled s (k.fetch ids)

namespace Store

variable (s)

/-- The records of versions, by their ids. -/
def versionRecords (ids : List Int) : List Version := (s.versionsOf ids).map s.versionOf

/-- The records of projects, by their ids. -/
def projectRecords (ids : List Int) : List Project := (s.projectsOf ids).map s.projectOf

theorem mem_versionRecords {id : Int} {v : Version} :
    v ∈ s.versionRecords [id] ↔ ∃ r ∈ s.versions, r.id = id ∧ s.versionOf r = v := by
  simp [versionRecords, mem_versionsOf, and_assoc]

theorem mem_projectRecords {id : Int} {p : Project} :
    p ∈ s.projectRecords [id] ↔ ∃ r ∈ s.projects, r.id = id ∧ s.projectOf r = p := by
  simp [projectRecords, mem_projectsOf, and_assoc]

theorem versionRecords_ne_nil (id : Int) :
    s.versionRecords [id] ≠ [] ↔ id ∈ s.versions.map (·.id) := by
  simp [List.eq_nil_iff_forall_not_mem, mem_versionRecords]

theorem projectRecords_ne_nil (id : Int) :
    s.projectRecords [id] ≠ [] ↔ id ∈ s.projects.map (·.id) := by
  simp [List.eq_nil_iff_forall_not_mem, mem_projectRecords]

theorem fetches_versions :
    RecordKind.versions.Fetches s s.versionRecords fun id =>
      ∀ r ∈ s.versionsOf [id], s.Typed r.id where
  isLocal := s.local_versionsOf.map fun _ => rfl
  yields := s.yields_versions.trans (and_congr_left fun _ => s.local_versionsOf.forall_mem_iff)
  settled := s.settled_versions

theorem fetches_projects : RecordKind.projects.Fetches s s.projectRecords fun _ => True where
  isLocal := s.local_projectsOf.map fun _ => rfl
  yields := s.yields_projects.trans (iff_and_self.2 fun _ _ _ => trivial)
  settled := s.settled_projects

end Store

namespace Loading

variable {k : RecordKind ρ} {records : List Int → List ρ} {fit : Int → Prop} {o : LoadOptions}
  {ids : List Int} {id : Int}

/-- What loading in batches of a size finds in the store for an id: its last record, and nothing if
there are no batches. -/
def stored (records : List Int → List ρ) (size : Int) (id : Int) : Option ρ :=
  if 0 < size then (records [id]).getLast? else none

theorem stored_mem {size : Int} {r : ρ} (h : stored records size id = some r) :
    r ∈ records [id] := by
  rw [stored] at h
  split at h
  · exact List.mem_of_getLast? h
  · cases h

theorem lookup_reverse_map {key : ρ → Int} (l : List ρ) :
    OrderedMap.lookup id (l.map fun r => (key r, r)).reverse =
      (l.filter fun r => decide (key r = id)).getLast? := by
  have hlookup (l : List ρ) : OrderedMap.lookup id (l.map fun r => (key r, r)) =
      (l.filter fun r => decide (key r = id)).head? := by
    induction l with
    | nil => rfl
    | cons r rest ih =>
      rw [List.map_cons, OrderedMap.lookup, ih, List.filter_cons]
      by_cases hr : key r = id <;> simp [hr]
  rw [← List.map_reverse, hlookup, List.filter_reverse, List.head?_reverse]

/-- The entries that batches of ids fetch. -/
def entriesOf (k : RecordKind ρ) (records : List Int → List ρ) (chunks : List (List Int)) :
    List (Int × ρ) :=
  chunks.flatMap fun c => (records c).map fun r => (k.id r, r)

theorem yields_fetchBatches (h : k.Fetches s records fit) {chunks : List (List Int)}
    {l : List (Int × ρ)} :
    Attempt.Yields s (fetchBatches k chunks) (.ok l) ↔
      (∀ id ∈ chunks.flatten, fit id) ∧ entriesOf k records chunks = l := by
  induction chunks generalizing l with
  | nil =>
    rw [fetchBatches, Attempt.yields_pure]
    simp [entriesOf]
  | cons c rest ih =>
    simp only [fetchBatches, Attempt.yields_bind, h.yields, ih, Attempt.yields_pure,
      List.flatten_cons, List.forall_mem_append, entriesOf, List.flatMap_cons]
    constructor
    · rintro ⟨_, ⟨hc, rfl⟩, _, ⟨hrest, rfl⟩, rfl⟩
      exact ⟨⟨hc, hrest⟩, rfl⟩
    · rintro ⟨⟨hc, hrest⟩, rfl⟩
      exact ⟨_, ⟨hc, rfl⟩, _, ⟨hrest, rfl⟩, rfl⟩

theorem lookup_entriesOf (h : k.Fetches s records fit) (chunks : List (List Int)) :
    OrderedMap.lookup id (entriesOf k records chunks).reverse =
      if id ∈ chunks.flatten then (records [id]).getLast? else none := by
  induction chunks with
  | nil => rfl
  | cons c rest ih =>
    have hbatch : OrderedMap.lookup id ((records c).map fun r => (k.id r, r)).reverse =
        if id ∈ c then (records [id]).getLast? else none := by
      rw [lookup_reverse_map]
      split
      · next hid => rw [h.isLocal.filter_eq hid]
      · next hid =>
        rw [List.filter_eq_nil_iff.2 fun r hr => ?_, List.getLast?_nil]
        exact fun hkey => hid (of_decide_eq_true hkey ▸ h.isLocal.key_mem hr)
    rw [entriesOf, List.flatMap_cons, List.reverse_append, OrderedMap.lookup_append, hbatch,
      ← entriesOf, ih, List.flatten_cons]
    by_cases hrest : id ∈ rest.flatten
    · rw [if_pos hrest, if_pos (List.mem_append_right _ hrest)]
      split <;> simp
    · simp [hrest]

/-- Fetching finds the last record of each id that is fit, if batches are not of size zero. -/
theorem yields_fetch (h : k.Fetches s records fit) {m : OrderedMap Int ρ} :
    Attempt.Yields s (fetch k o ids) (.ok m) ↔ o.batchSize ≠ 0 ∧
      (0 < o.batchSize → ∀ id ∈ ids, fit id) ∧
        OrderedMap.ofList (entriesOf k records (slices o.batchSize.toNat ids)) = m := by
  have hflatten : (∀ id ∈ (slices o.batchSize.toNat ids).flatten, fit id) ↔
      (0 < o.batchSize → ∀ id ∈ ids, fit id) := by
    by_cases hpos : 0 < o.batchSize
    · rw [flatten_slices (by omega)]
      exact ⟨fun h _ => h, fun h => h hpos⟩
    · rw [Int.toNat_of_nonpos (by omega), slices_zero]
      simp [hpos]
  rw [fetch, batches]
  split
  · next e he =>
    split at he
    · next hzero => exact iff_of_false Attempt.not_yields_throw fun hm => hm.1 hzero
    · cases he
  · next chunks hchunks =>
    split at hchunks
    · cases hchunks
    · next hne =>
      cases hchunks
      simp only [Attempt.yields_bind, Attempt.yields_withError_ok, yields_fetchBatches h,
        Attempt.yields_pure, hflatten]
      constructor
      · rintro ⟨_, ⟨hfit, rfl⟩, rfl⟩
        exact ⟨hne, hfit, rfl⟩
      · rintro ⟨-, hfit, rfl⟩
        exact ⟨_, ⟨hfit, rfl⟩, rfl⟩

theorem find?_fetched (h : k.Fetches s records fit) :
    (OrderedMap.ofList (entriesOf k records (slices o.batchSize.toNat ids))).find? id =
      if id ∈ ids then stored records o.batchSize id else none := by
  rw [OrderedMap.find?_ofList, lookup_entriesOf h, stored]
  by_cases hpos : 0 < o.batchSize
  · rw [flatten_slices (by omega), if_pos hpos]
  · rw [Int.toNat_of_nonpos (by omega), slices_zero, if_neg hpos, ite_self]
    rfl

/-- The ids can be loaded: unless there are none, batches are not of size zero, and if there are
batches, the ids are fit to be fetched. -/
def Loadable (fit : Int → Prop) (size : Int) (ids : List Int) : Prop :=
  (ids ≠ [] → size ≠ 0) ∧ (0 < size → ∀ id ∈ ids, fit id)

/-- The records found for the ids are those that the store has. -/
def Finds (records : List Int → List ρ) (size : Int) (ids : List Int) (m : OrderedMap Int ρ) :
    Prop :=
  ∀ id, m.find? id = if id ∈ ids then stored records size id else none

/-- Batches of two sizes load the same: they are of the same size, or neither is empty. -/
def Interchangeable (size size' : Int) : Prop := size = size' ∨ 0 < size ∧ 0 < size'

theorem Interchangeable.symm {size size' : Int} (h : Interchangeable size size') :
    Interchangeable size' size :=
  h.imp Eq.symm And.symm

theorem Interchangeable.stored {size size' : Int} (h : Interchangeable size size')
    (records : List Int → List ρ) (id : Int) :
    stored records size id = stored records size' id := by
  rcases h with rfl | ⟨hsize, hsize'⟩
  · rfl
  · rw [Loading.stored, Loading.stored, if_pos hsize, if_pos hsize']

theorem Interchangeable.loadable {size size' : Int} (h : Interchangeable size size')
    (hl : Loadable fit size ids) : Loadable fit size' ids := by
  rcases h with rfl | ⟨hsize, hsize'⟩
  · exact hl
  · exact ⟨fun _ => by omega, fun _ => hl.2 hsize⟩

theorem Loadable.imp {fit' : Int → Prop} {size : Int} (h : Loadable fit size ids)
    (hfit : ∀ id ∈ ids, fit id → fit' id) : Loadable fit' size ids :=
  ⟨h.1, fun hsize id hid => hfit id hid (h.2 hsize id hid)⟩

theorem Loadable.subset {ids' : List Int} {size : Int} (h : Loadable fit size ids)
    (hids : ids' ⊆ ids) : Loadable fit size ids' :=
  ⟨fun hne => h.1 fun hnil => hne (List.subset_nil.1 (hnil ▸ hids)),
    fun hsize id hid => h.2 hsize id (hids hid)⟩

theorem loadable_distinct {size : Int} :
    Loadable fit size (distinct ids) ↔ Loadable fit size ids := by
  have hnil : distinct ids = [] ↔ ids = [] := by
    simp only [List.eq_nil_iff_forall_not_mem, mem_distinct]
  simp only [Loadable, Ne, hnil, mem_distinct]

theorem finds_distinct {size : Int} {m : OrderedMap Int ρ} :
    Finds records size (distinct ids) m ↔ Finds records size ids m := by
  simp only [Finds, mem_distinct]

theorem Finds.stored_eq {size : Int} {m : OrderedMap Int ρ} {r : ρ} (h : Finds records size ids m)
    (hr : m.find? id = some r) : stored records size id = some r :=
  (Option.ite_none_right_eq_some.1 ((h id).symm.trans hr)).2

theorem Finds.mem {size : Int} {m : OrderedMap Int ρ} {r : ρ} (h : Finds records size ids m)
    (hr : m.find? id = some r) : id ∈ ids ∧ r ∈ records [id] := by
  rw [h id] at hr
  split at hr
  · next hid => exact ⟨hid, stored_mem hr⟩
  · cases hr

theorem Finds.size_pos {size : Int} {m : OrderedMap Int ρ} {r : ρ} (h : Finds records size ids m)
    (hr : m.find? id = some r) : 1 ≤ size := by
  rw [h id, stored] at hr
  by_contra hsize
  rw [if_neg (by omega : ¬ 0 < size), ite_self] at hr
  cases hr

theorem finds_nil {size : Int} : Finds records size [] ∅ := fun _ => rfl

/-- Without a cache, the records of all ids are fetched. -/
theorem loadDistinct_uncached (hc : o.cached = false) (ids : List Int) :
    loadDistinct k o ids = if ids.isEmpty then return ∅ else do
      return (∅ : OrderedMap Int ρ).insertAll (← fetch k o ids).entries := by
  have hmissing : ids.filter (fun id => !(∅ : OrderedMap Int ρ).contains id) = ids :=
    List.filter_eq_self.2 fun _ _ => rfl
  rw [loadDistinct, readCache, hc, if_neg Bool.false_ne_true, pure_bind, hmissing]
  rfl

theorem yields_loadDistinct (h : k.Fetches s records fit) (hc : o.cached = false)
    {m : OrderedMap Int ρ} (hm : Attempt.Yields s (loadDistinct k o ids) (.ok m)) :
    Loadable fit o.batchSize ids ∧ Finds records o.batchSize ids m := by
  rw [loadDistinct_uncached hc] at hm
  split at hm
  · next hids =>
    rw [List.isEmpty_iff.1 hids]
    cases Attempt.yields_pure.1 hm
    exact ⟨⟨fun h => absurd rfl h, fun _ _ hid => absurd hid List.not_mem_nil⟩, finds_nil⟩
  · obtain ⟨fetched, hfetched, hm⟩ := Attempt.yields_bind.1 hm
    cases Attempt.yields_pure.1 hm
    obtain ⟨hsize, hfit, rfl⟩ := (yields_fetch h).1 hfetched
    refine ⟨⟨fun _ => hsize, hfit⟩, fun id => ?_⟩
    rw [OrderedMap.find?_insertAll_entries, find?_fetched h]
    exact Option.or_none

/-- Without a cache, loading finds what the store has. -/
theorem yields_load (h : k.Fetches s records fit) (hc : o.cached = false) {m : OrderedMap Int ρ}
    (hm : Attempt.Yields s (load k o ids) (.ok m)) :
    Loadable fit o.batchSize ids ∧ Finds records o.batchSize ids m := by
  rw [← loadable_distinct, ← finds_distinct]
  rw [load] at hm
  split at hm
  · next hids =>
    rw [hids]
    cases Attempt.yields_pure.1 hm
    exact ⟨⟨fun h => absurd rfl h, fun _ _ hid => absurd hid List.not_mem_nil⟩, finds_nil⟩
  · next id rest hids =>
    rw [hids]
    exact yields_loadDistinct h hc hm

theorem settled_fetchBatches (h : k.Fetches s records fit) (chunks : List (List Int)) :
    Attempt.Settled s (fetchBatches k chunks) := by
  induction chunks with
  | nil => exact Attempt.settled_pure
  | cons c rest ih =>
    exact (h.settled c).bind fun rs => ih.bind fun l => Attempt.settled_pure

theorem settled_fetch (h : k.Fetches s records fit) (o : LoadOptions) (ids : List Int) :
    Attempt.Settled s (fetch k o ids) := by
  rw [fetch]
  split
  · exact Attempt.settled_throw
  · exact (settled_fetchBatches h _).withError.bind fun l => Attempt.settled_pure

theorem settled_load (h : k.Fetches s records fit) (hc : o.cached = false) (ids : List Int) :
    Attempt.Settled s (load k o ids) := by
  rw [load]
  split
  · exact Attempt.settled_pure
  · next id rest _ =>
    rw [loadDistinct_uncached hc]
    split
    · exact Attempt.settled_pure
    · exact (settled_fetch h o _).bind fun m => Attempt.settled_pure

/-- Without a cache, ids that can be loaded are loaded. -/
theorem exists_yields_load (h : k.Fetches s records fit) (hc : o.cached = false)
    (hl : Loadable fit o.batchSize ids) : ∃ m, Attempt.Yields s (load k o ids) (.ok m) := by
  rw [← loadable_distinct] at hl
  rw [load]
  split
  · exact ⟨∅, Attempt.yields_pure.2 rfl⟩
  · next id rest hids =>
    rw [hids] at hl
    obtain ⟨hsize, hfit⟩ := hl
    have hfetch := (yields_fetch (o := o) h).2 ⟨hsize (List.cons_ne_nil id rest), hfit, rfl⟩
    rw [loadDistinct_uncached hc, if_neg (by simp)]
    exact ⟨_, Attempt.yields_bind.2 ⟨_, hfetch, Attempt.yields_pure.2 rfl⟩⟩

theorem yields_loadBoth {versionIds projectIds : List Int}
    {r : OrderedMap Int Version × OrderedMap Int Project} :
    Attempt.Yields s (loadBoth o versionIds projectIds) (.ok r) ↔
      Attempt.Yields s (load .versions o versionIds) (.ok r.1) ∧
        Attempt.Yields s (load .projects o projectIds) (.ok r.2) := by
  simp only [loadBoth, Attempt.yields_bind, Attempt.yields_outcome]
  constructor
  · rintro ⟨versions, hv, projects, hp, hr⟩
    match versions, projects with
    | .ok _, .ok _ => cases Attempt.yields_pure.1 hr; exact ⟨hv, hp⟩
    | .error _, _ => exact absurd hr Attempt.not_yields_throw
    | .ok _, .error _ => exact absurd hr Attempt.not_yields_throw
  · rintro ⟨hv, hp⟩
    exact ⟨_, hv, _, hp, Attempt.yields_pure.2 rfl⟩

end Loading

end CatalogSearch
