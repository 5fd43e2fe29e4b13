import CatalogSearch.Proofs.Loading.Cached

/-!
# Loading from any cache

Loading from a cache that may have any text under any key and gives back exactly what it has. What
it has as a record of the kind counts, whatever the record is, and the store only where the cache
has none (`ensures_loadSteadily`). Nothing is written to the cache but texts of records of the store
(`Refreshes`).
-/

namespace CatalogSearch

open Cache

variable {ρ : Type} {s : Store} {k : RecordKind ρ} {records : List Int → List ρ}
  {fit : Int → Prop} {o : LoadOptions} {ids : List Int} {c c₀ c' : Contents} {size : Int}

namespace Cache.Contents

/-- The record of a kind that the cache has for an id. -/
def record? (c : Contents) (k : RecordKind ρ) (id : Int) : Option ρ :=
  (c (k.cacheKey id)).bind k.ofText?

/-- The record of the cache for an id, and that of the store where the cache has none. -/
def preferred (c : Contents) (k : RecordKind ρ) (records : List Int → List ρ) (size id : Int) :
    Option ρ :=
  (c.record? k id).or (Loading.stored records size id)

/-- The contents agree but for texts of records with a property, under the keys of these. -/
def AgreesBut (k : RecordKind ρ) (P : Int → ρ → Prop) (c c' : Contents) : Prop :=
  ∀ key, c' key = c key ∨ ∃ id r, P id r ∧ key = k.cacheKey id ∧ c' key = some (k.text r)

variable {P : Int → ρ → Prop}

theorem agreesBut_refl (k : RecordKind ρ) (P : Int → ρ → Prop) (c : Contents) : c.AgreesBut k P c :=
  fun _ => .inl rfl

theorem AgreesBut.set (h : c₀.AgreesBut k P c) {id : Int} {r : ρ} (hr : P id r) :
    c₀.AgreesBut k P (c.set (k.cacheKey id) (k.text r)) := by
  intro key
  by_cases hkey : key = k.cacheKey id
  · exact .inr ⟨id, r, hr, hkey, if_pos hkey⟩
  · rw [Contents.set, if_neg hkey]
    exact h key

/-- Texts of versions are not under keys of projects. -/
theorem AgreesBut.project_eq {P : Int → Version → Prop} (h : c₀.AgreesBut .versions P c)
    (id : Int) : c (RecordKind.projects.cacheKey id) = c₀ (RecordKind.projects.cacheKey id) := by
  refine (h _).resolve_right ?_
  rintro ⟨id', r, -, hkey, -⟩
  exact RecordKind.cacheKey_ne id' id hkey.symm

theorem AgreesBut.record?_projects {P : Int → Version → Prop} (h : c₀.AgreesBut .versions P c)
    (id : Int) : c.record? .projects id = c₀.record? .projects id := by
  rw [record?, record?, h.project_eq]

end Cache.Contents

/-- A store that answers all queries, and a cache that gives back what it has; what is written to it
may be lost. -/
def Store.steadyWorld (s : Store) : Behaviour Request Request.Reply Contents
  | .store q, c, r, c' => r = .ok (s.answer q) ∧ c' = c
  | .engine _, c, _, c' => c' = c
  | .cache (.read keys), c, r, c' => r = .ok (keys.map c) ∧ c' = c
  | .cache (.write key _ text), c, r, c' =>
    (c' = c ∨ c' = c.set key text) ∧ ((∃ message, r = .error (.unreachable message)) ∨ r = .ok ())
  | .cache _, c, _, c' => c' = c

namespace Loading

theorem answersFrom_steadyWorld (s : Store) (c : Contents) :
    Dialogue.AnswersFrom s s.steadyWorld (· = c) := by
  rintro q _ r c' rfl h
  exact h

theorem find?_validRecords (c : Contents) (k : RecordKind ρ) (ids : List Int) (id : Int) :
    (validRecords k ids ((ids.map k.cacheKey).map c)).find? id =
      if id ∈ ids then c.record? k id else none := by
  have hrecords : validRecords k ids ((ids.map k.cacheKey).map c) =
      .ofList (ids.filterMap fun id => (c.record? k id).map fun r => (id, r)) := by
    rw [validRecords, List.map_map, ← List.map_prod_left_eq_zip, List.filterMap_map]
    rfl
  rw [hrecords, OrderedMap.find?_ofList, ← List.filterMap_reverse,
    OrderedMap.lookup_filterMap]
  simp only [List.mem_reverse]

/-- The records found for the ids are those that the cache or else the store has. -/
def Prefers (c : Contents) (k : RecordKind ρ) (records : List Int → List ρ) (size : Int)
    (ids : List Int) (m : OrderedMap Int ρ) : Prop :=
  ∀ id, m.find? id = if id ∈ ids then c.preferred k records size id else none

theorem prefers_distinct (ids : List Int) {m : OrderedMap Int ρ} :
    Prefers c k records size (distinct ids) m ↔ Prefers c k records size ids m := by
  simp only [Prefers, mem_distinct]

/-- What the cache has, and what the store has for the other ids. -/
theorem prefers_insertAll {cached fetched : OrderedMap Int ρ}
    (hcached : ∀ id, cached.find? id = if id ∈ ids then c.record? k id else none)
    (hfetched : Finds records size (ids.filter fun id => !cached.contains id) fetched) :
    Prefers c k records size ids (cached.insertAll fetched.entries) := by
  intro id
  rw [OrderedMap.find?_insertAll_entries, hfetched id, hcached id, Contents.preferred]
  have hmissing : id ∈ ids.filter (fun id => !cached.contains id) ↔
      id ∈ ids ∧ c.record? k id = none := by
    rw [List.mem_filter, OrderedMap.contains, hcached id]
    refine and_congr_right fun hid => ?_
    rw [if_pos hid]
    cases c.record? k id <;> simp
  by_cases hid : id ∈ ids
  · cases hr : c.record? k id with
    | none => simp [hmissing, hid, hr]
    | some r => simp [hmissing, hid, hr]
  · simp [hmissing, hid]

/-- If the cache has records for one id only, it is this id for which the store's does not count. -/
theorem prefers_insert (h : k.Fetches s records fit) {id : Int} {r : ρ} (hid : id ∈ ids)
    (hr : c.record? k id = some r) (hnone : ∀ id', id' ≠ id → c.record? k id' = none) :
    Prefers c k records o.batchSize ids ((OrderedMap.ofList
      (entriesOf k records (slices o.batchSize.toNat ids))).insert id r) := by
  intro id'
  rw [OrderedMap.find?_insert, find?_fetched h, Contents.preferred]
  by_cases heq : id = id'
  · subst heq
    rw [if_pos rfl, if_pos hid, hr]
    rfl
  · rw [if_neg heq, hnone id' (Ne.symm heq)]
    rfl

theorem prefers_fetched (h : k.Fetches s records fit) (hnone : ∀ id, c.record? k id = none) :
    Prefers c k records o.batchSize ids (OrderedMap.ofList
      (entriesOf k records (slices o.batchSize.toNat ids))) := by
  intro id
  rw [find?_fetched h, Contents.preferred, hnone id]
  rfl

theorem ensures_readSteadily (hc : o.cached = true) (ids : List Int) (c : Contents) :
    Attempt.Ensures s.steadyWorld (fun _ => True)
      (fun m c' => c' = c ∧ ∀ id, m.find? id = if id ∈ ids then c.record? k id else none)
      (fun _ _ => False) (readCache k o ids) c := by
  rw [readCache, if_pos hc]
  refine Attempt.ensures_bind.2 (Attempt.ensures_outcome.2 (Attempt.ensures_askCache.2 ?_))
  rintro r c' ⟨rfl, rfl⟩
  exact ⟨trivial, rfl, find?_validRecords c' k ids⟩

theorem ensures_writeSteadily {P : Int → ρ → Prop} {entries : List (Int × ρ)}
    (hP : ∀ e ∈ entries, P e.1 e.2) (hc : c₀.AgreesBut k P c) :
    Attempt.Ensures s.steadyWorld (fun _ => True) (fun _ c' => c₀.AgreesBut k P c')
      (fun _ _ => False) (writeCache k o.expiry entries) c := by
  refine (ensures_writeCache_of (Q := fun _ => False) (fun _ _ => trivial) ?_ hc).mono
    (fun _ _ hc => hc) fun _ _ h => h.2
  rintro e he c x c' hc ⟨hafter, hx⟩
  constructor
  · rcases hafter with rfl | rfl
    · exact hc
    · exact hc.set (hP e he)
  · rintro message rfl
    rcases hx with ⟨_, hx⟩ | hx <;> cases hx

theorem ensures_loadDistinctSteadily (h : k.Fetches s records fit) (ho : o.cached = true)
    (hl : Loadable fit o.batchSize ids) (c : Contents) :
    Attempt.Ensures s.steadyWorld (fun _ => True)
      (fun m c' => c.AgreesBut k (fun id r => stored records o.batchSize id = some r) c' ∧
        Prefers c k records o.batchSize ids m)
      (fun _ _ => False) (loadDistinct k o ids) c := by
  apply ensures_loadDistinct_of (ensures_readSteadily ho ids c)
    (F := fun cached => Finds records o.batchSize (ids.filter fun id => !cached.contains id))
  · intro cached hcached hmissing
    exact prefers_insertAll hcached (hmissing ▸ finds_nil)
  · rintro cached _ rfl _ hmissing
    have hids : ids ≠ [] := by
      rintro rfl
      exact hmissing rfl
    refine ((yields_fetch h).2 ⟨hl.1 hids, ?_, rfl⟩).ensures (answersFrom_steadyWorld s _) rfl
      (fun _ _ => trivial) fun _ hc => ⟨hc, fun _ => find?_fetched h⟩
    exact fun hpos id hid => hl.2 hpos id (List.mem_filter.1 hid).1
  · intro cached fetched hcached hfetched
    exact prefers_insertAll hcached hfetched
  · rintro cached fetched _ rfl hfetched
    exact ensures_writeSteadily (fun e he => hfetched.stored_eq (OrderedMap.mem_entries.1 he))
      (Contents.agreesBut_refl k _ _)
  · rintro _ rfl
    exact Contents.agreesBut_refl k _ _

theorem ensures_loadSteadily (h : k.Fetches s records fit) (ho : o.cached = true)
    (hl : Loadable fit o.batchSize ids) (c : Contents) :
    Attempt.Ensures s.steadyWorld (fun _ => True)
      (fun m c' => c.AgreesBut k (fun id r => stored records o.batchSize id = some r) c' ∧
        Prefers c k records o.batchSize ids m)
      (fun _ _ => False) (load k o ids) c := by
  simp only [← prefers_distinct ids]
  rw [load]
  split
  · next hids => exact ⟨Contents.agreesBut_refl k _ c, fun id => by rw [hids]; rfl⟩
  · next id rest hids =>
    rw [hids]
    exact ensures_loadDistinctSteadily h ho (hids ▸ loadable_distinct.2 hl) c

/-- The contents after both loads: nothing has changed but that texts of records of the store have
been written. -/
def Refreshes (s : Store) (size : Int) (c c' : Contents) : Prop :=
  ∃ c₁, c.AgreesBut .versions (fun id r => stored s.versionRecords size id = some r) c₁ ∧
    c₁.AgreesBut .projects (fun id r => stored s.projectRecords size id = some r) c'

/-- What has come to be under the key of a project is the text of its record. -/
theorem Refreshes.exists_project (h : Refreshes s size c c') {id : Int} {text : String}
    (hnone : c (RecordKind.projects.cacheKey id) = none)
    (htext : c' (RecordKind.projects.cacheKey id) = some text) :
    ∃ p, stored s.projectRecords size id = some p ∧ text = RecordKind.projects.text p := by
  obtain ⟨c₁, hversions, hprojects⟩ := h
  rcases hprojects (RecordKind.projects.cacheKey id) with heq | ⟨id', p, hp, hkey, htext'⟩
  · rw [heq, hversions.project_eq, hnone] at htext
    cases htext
  · rw [htext'] at htext
    cases htext
    exact ⟨p, RecordKind.cacheKey_inj hkey ▸ hp, rfl⟩

/-- Both loads find what the cache had before the first of them. -/
theorem ensures_loadBothSteadily {versionIds projectIds : List Int} (ho : o.cached = true)
    (hv : Loadable (fun id => ∀ r ∈ s.versionsOf [id], s.Typed r.id) o.batchSize versionIds)
    (hp : Loadable (fun _ => True) o.batchSize projectIds) (c : Contents) :
    Attempt.Ensures s.steadyWorld (fun _ => True)
      (fun r c' => Prefers c .versions s.versionRecords o.batchSize versionIds r.1 ∧
        Prefers c .projects s.projectRecords o.batchSize projectIds r.2 ∧
          Refreshes s o.batchSize c c')
      (fun _ _ => False) (loadBoth o versionIds projectIds) c := by
  refine Attempt.ensures_bind.2 (Attempt.ensures_outcome.2
    ((ensures_loadSteadily s.fetches_versions ho hv c).mono ?_ fun _ _ h => h.elim))
  rintro versions c₁ ⟨hc₁, hversions⟩
  refine Attempt.ensures_bind.2 (Attempt.ensures_outcome.2
    ((ensures_loadSteadily s.fetches_projects ho hp c₁).mono ?_ fun _ _ h => h.elim))
  rintro projects c₂ ⟨hc₂, hprojects⟩
  refine ⟨hversions, fun id => (hprojects id).trans ?_, c₁, hc₁, hc₂⟩
  rw [Contents.preferred, Contents.preferred, hc₁.record?_projects]

end Loading

end CatalogSearch
