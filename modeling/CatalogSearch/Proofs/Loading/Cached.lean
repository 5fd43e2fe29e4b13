import CatalogSearch.Proofs.Cache.Contents

/-!
# Loading with a cache

Whatever the cache does, if it was coherent before, under each id asked for there is what the store
has for it, as without a cache, and the cache is coherent afterwards (`ensures_load`).
-/

namespace CatalogSearch.Loading

open Cache

variable {ρ : Type} {s : Store} {k : RecordKind ρ} {records : List Int → List ρ}
  {fit : Int → Prop} {o : LoadOptions} {ids : List Int} {c : Contents}

theorem answersFrom_cachedWorld (s : Store) (size : Int) :
    Dialogue.AnswersFrom s s.cachedWorld (Contents.Coherent s size) :=
  fun _ _ _ _ hc h => ⟨h.1, hc.drift h.2⟩

/-- What is found is among the ids, and is what the store has. -/
def FindsSome (records : List Int → List ρ) (size : Int) (ids : List Int) (m : OrderedMap Int ρ) :
    Prop :=
  ∀ id r, m.find? id = some r → id ∈ ids ∧ stored records size id = some r

theorem ensures_readCache (hk : k.Cached s records o.batchSize) (hc : c.Coherent s o.batchSize)
    (ids : List Int) :
    Attempt.Ensures s.cachedWorld (Contents.Coherent s o.batchSize)
      (fun m c' => c'.Coherent s o.batchSize ∧ FindsSome records o.batchSize ids m)
      (fun _ _ => False) (readCache k o ids) c := by
  rw [readCache]
  split
  · refine Attempt.ensures_bind.2 (Attempt.ensures_outcome.2 (Attempt.ensures_askCache.2 ?_))
    rintro r c' ⟨_, ⟨rfl, hr⟩, hdrift⟩
    have hc' := hc.drift hdrift
    refine ⟨hc', ?_⟩
    rcases hr with ⟨message, rfl⟩ | ⟨texts, rfl, htexts⟩
    · exact ⟨hc', holds_empty⟩
    · exact ⟨hc', Contents.Within.holds_validRecords (hk.faithful hc) htexts⟩
  · exact ⟨hc, holds_empty⟩

/-- Records of the store may be written, as many of the writes as take effect. -/
theorem ensures_writeCache (hk : k.Cached s records o.batchSize) {entries : List (Int × ρ)}
    (he : ∀ e ∈ entries, stored records o.batchSize e.1 = some e.2)
    (hc : c.Coherent s o.batchSize) :
    Attempt.Ensures s.cachedWorld (Contents.Coherent s o.batchSize)
      (fun _ c' => c'.Coherent s o.batchSize) (fun _ _ => False)
      (writeCache k o.expiry entries) c := by
  refine (ensures_writeCache_of (Q := fun _ => False) (fun _ hc => hc) ?_ hc).mono
    (fun _ _ hc => hc) fun _ _ h => h.2
  rintro e hmem c x c' hc ⟨after, ⟨hafter, hx⟩, hdrift⟩
  refine ⟨Contents.Coherent.drift ?_ hdrift, ?_⟩
  · rcases hafter with rfl | rfl
    · exact hc
    · exact hk.set hc (he e hmem)
  · rintro message rfl
    rcases hx with ⟨_, hx⟩ | hx <;> cases hx

theorem ensures_fetch (h : k.Fetches s records fit) (hsize : o.batchSize ≠ 0)
    (hfit : 0 < o.batchSize → ∀ id ∈ ids, fit id) (hc : c.Coherent s o.batchSize) :
    Attempt.Ensures s.cachedWorld (Contents.Coherent s o.batchSize)
      (fun m c' => c'.Coherent s o.batchSize ∧ Finds records o.batchSize ids m)
      (fun _ _ => False) (fetch k o ids) c :=
  ((yields_fetch h).2 ⟨hsize, hfit, rfl⟩).ensures (answersFrom_cachedWorld s o.batchSize) hc
    (fun _ hc' => hc') fun _ hc' => ⟨hc', fun _ => find?_fetched h⟩

/-- What the cache has, and what the store has for the other ids, is what the store has for all. -/
theorem finds_insertAll {cached fetched : OrderedMap Int ρ}
    (hcached : FindsSome records o.batchSize ids cached)
    (hfetched : Finds records o.batchSize (ids.filter fun id => !cached.contains id) fetched) :
    Finds records o.batchSize ids (cached.insertAll fetched.entries) := by
  intro id
  rw [OrderedMap.find?_insertAll_entries, hfetched id]
  cases hid : cached.find? id with
  | some r =>
    obtain ⟨hmem, hr⟩ := hcached id r hid
    have hcontains : cached.contains id = true := by rw [OrderedMap.contains, hid]; rfl
    rw [if_neg (by simp [hcontains]), if_pos hmem, hr]
    rfl
  | none =>
    have hcontains : cached.contains id = false := by rw [OrderedMap.contains, hid]; rfl
    simp [hcontains]

theorem ensures_loadDistinct (h : k.Fetches s records fit)
    (hk : k.Cached s records o.batchSize) (hl : Loadable fit o.batchSize ids)
    (hc : c.Coherent s o.batchSize) :
    Attempt.Ensures s.cachedWorld (Contents.Coherent s o.batchSize)
      (fun m c' => c'.Coherent s o.batchSize ∧ Finds records o.batchSize ids m)
      (fun _ _ => False) (loadDistinct k o ids) c := by
  apply ensures_loadDistinct_of (ensures_readCache hk hc ids)
    (F := fun cached => Finds records o.batchSize (ids.filter fun id => !cached.contains id))
  · intro cached hcached hmissing
    -- Nothing is missing, so what the cache has is as good as if the store had been asked.
    exact finds_insertAll hcached (hmissing ▸ finds_nil)
  · intro cached c₁ hc₁ _ hmissing
    have hids : ids ≠ [] := by
      rintro rfl
      exact hmissing rfl
    refine ensures_fetch h (hl.1 hids) ?_ hc₁
    exact fun hpos id hid => hl.2 hpos id (List.mem_filter.1 hid).1
  · intro cached fetched hcached hfetched
    exact finds_insertAll hcached hfetched
  · intro cached fetched c₂ hc₂ hfetched
    -- Only what the store has just given is written, which keeps the cache coherent.
    refine ensures_writeCache hk ?_ hc₂
    intro e he
    have hfind := hfetched e.1
    rw [OrderedMap.mem_entries.1 he] at hfind
    split at hfind
    · exact hfind.symm
    · cases hfind
  · exact fun _ hc => hc

/-- With a cache or without, loading finds what the store has. -/
theorem ensures_load (h : k.Fetches s records fit) (hk : k.Cached s records o.batchSize)
    (hl : Loadable fit o.batchSize ids) (hc : c.Coherent s o.batchSize) :
    Attempt.Ensures s.cachedWorld (Contents.Coherent s o.batchSize)
      (fun m c' => c'.Coherent s o.batchSize ∧ Finds records o.batchSize ids m)
      (fun _ _ => False) (load k o ids) c := by
  have hdistinct : Attempt.Ensures s.cachedWorld (Contents.Coherent s o.batchSize)
      (fun m c' => c'.Coherent s o.batchSize ∧ Finds records o.batchSize (distinct ids) m)
      (fun _ _ => False) (load k o ids) c := by
    rw [← loadable_distinct] at hl
    rw [load]
    split
    · next hids =>
      rw [hids]
      exact ⟨hc, finds_nil⟩
    · next id rest hids =>
      rw [hids] at hl ⊢
      exact ensures_loadDistinct h hk hl hc
  exact hdistinct.mono (fun _ _ hm => ⟨hm.1, finds_distinct.1 hm.2⟩) fun _ _ h => h

theorem ensures_loadBoth {versionIds projectIds : List Int}
    (hv : Loadable (fun id => ∀ r ∈ s.versionsOf [id], s.Typed r.id) o.batchSize versionIds)
    (hp : Loadable (fun _ => True) o.batchSize projectIds) (hc : c.Coherent s o.batchSize) :
    Attempt.Ensures s.cachedWorld (Contents.Coherent s o.batchSize)
      (fun m c' => c'.Coherent s o.batchSize ∧
        Finds s.versionRecords o.batchSize versionIds m.1 ∧
        Finds s.projectRecords o.batchSize projectIds m.2)
      (fun _ _ => False) (loadBoth o versionIds projectIds) c := by
  refine Attempt.ensures_bind.2 (Attempt.ensures_outcome.2
    ((ensures_load s.fetches_versions (s.cached_versions _) hv hc).mono ?_ fun _ _ h => h.elim))
  rintro versions c₁ ⟨hc₁, hversions⟩
  refine Attempt.ensures_bind.2 (Attempt.ensures_outcome.2
    ((ensures_load s.fetches_projects (s.cached_projects _) hp hc₁).mono ?_ fun _ _ h => h.elim))
  rintro projects c₂ ⟨hc₂, hprojects⟩
  exact ⟨hc₂, hversions, hprojects⟩

end CatalogSearch.Loading
