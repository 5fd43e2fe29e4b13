import CatalogSearch.Proofs.Indexing.Steady
import CatalogSearch.Proofs.Worker.CacheHistory

/-!
# Any cache under the worker

The worker with a cache of any contents. A run returns documents unless the cache has, for a visible
version, a record that no document can be made of (`returns_iff_allPresentable`).
-/

namespace CatalogSearch.Worker

open Cache

variable {s : Store} {settings : Settings} {registry : License.Registry}
  {documents : List Document} {c c' : Contents} {connections connections' : Connections}

/-- A run comes to what the records give which count, and writes only records of the store. -/
theorem settlesPreferred_of_reaches (hready : Indexing.Ready s settings.loadBatchSize)
    (hcache : connections.cache = true) {result : Except IndexingError (List Document)}
    (hr : Dialogue.Reaches s.steadyWorld ((index settings true registry).run connections) c
      (.done (result, connections')) c') :
    Indexing.SettlesPreferred s settings.loadBatchSize registry c result ∧
      Loading.Refreshes s settings.loadBatchSize c c' := by
  have hindex : Ensures s.steadyWorld (fun _ => True)
      (fun documents _ c' =>
        Indexing.SettlesPreferred s settings.loadBatchSize registry c (.ok documents) ∧
          Loading.Refreshes s settings.loadBatchSize c c')
      (fun e _ c' => Indexing.SettlesPreferred s settings.loadBatchSize registry c (.error e) ∧
        Loading.Refreshes s settings.loadBatchSize c c')
      (index settings true registry) connections c := by
    refine ensures_bind.2 (ensures_get.2 (ensures_ofAttempt.2 ?_))
    rw [hcache]
    exact Indexing.ensures_runPreferred hready registry c
  have hpost := hindex.rest hr
  cases result with
  | ok documents => exact hpost
  | error e => exact hpost

theorem ensures_indexSteadily (hready : Indexing.Ready s settings.loadBatchSize)
    (hcache : connections.cache = true) (registry : License.Registry) (c : Contents) :
    Ensures s.steadyWorld (fun _ => True)
      (fun _ _ _ => Indexing.AllPresentable s settings.loadBatchSize c)
      (fun _ _ _ => ¬ Indexing.AllPresentable s settings.loadBatchSize c)
      (index settings true registry) connections c := by
  refine ensures_bind.2 (ensures_get.2 (ensures_ofAttempt.2 ?_))
  rw [hcache]
  exact Indexing.ensures_runSteadily hready registry c

/-- Where a run without a cache returns documents, one with a cache of any contents does so iff
documents can be made of the records that count: those of the cache, and where it has none those of
the store. -/
theorem returns_iff_allPresentable
    (h : Attempt.Yields s (Indexing.run settings false registry) (.ok documents))
    (hcache : connections.cache = true) {result : Except IndexingError (List Document)}
    (hr : Dialogue.Reaches s.steadyWorld ((index settings true registry).run connections) c
      (.done (result, connections')) c') :
    (∃ documents', result = .ok documents') ↔
      Indexing.AllPresentable s settings.loadBatchSize c := by
  obtain ⟨hready, -⟩ := Indexing.gathered_of_yields h
  have hpost := (ensures_indexSteadily hready hcache registry c).rest hr
  cases result with
  | ok documents' => exact iff_of_true ⟨documents', rfl⟩ hpost
  | error e => exact iff_of_false nofun hpost

theorem steadyWorld_remember (s : Store) (r : Request) (c : Contents) :
    s.steadyWorld r c (remember s r c).1 (remember s r c).2 := by
  cases r with
  | store q => exact ⟨rfl, rfl⟩
  | engine call => rfl
  | cache command =>
    cases command with
    | read keys => exact ⟨rfl, rfl⟩
    | write key ttl text => exact ⟨.inr rfl, .inr rfl⟩
    | connect connection | ping | close | info => rfl

/-- A cache that has one record of a version, with a list field of some value. -/
def withField (value : Json) : Contents :=
  Contents.empty.set (RecordKind.versions.cacheKey 7)
    (RecordKind.versions.text ⟨7, 100, "listed", [], [], [⟨1, "sizes", ⟨true, .integer⟩, value⟩]⟩)

/-- The result of indexing with such a cache. -/
def indexWithField (value : Json) : Except IndexingError (List Document) :=
  (((index .default true .sample).run ⟨true, false⟩).run (remember .sample)
    (withField value)).1.1

theorem reaches_indexWithField (value : Json) :
    ∃ connections' c', Dialogue.Reaches Store.sample.steadyWorld
      ((index .default true .sample).run ⟨true, false⟩) (withField value)
      (.done (indexWithField value, connections')) c' :=
  ⟨_, _, Dialogue.reaches_run (steadyWorld_remember .sample) _ _⟩

theorem yields_cacheless_sample : ∃ documents,
    Attempt.Yields .sample (Indexing.run .default false .sample) (.ok documents) := by
  obtain ⟨r, hr⟩ := Indexing.settled_run .sample .default .sample
  have hok : (((Indexing.run .default false .sample).run.run (remember .sample)
      .empty).1).isOk = true := by decide +kernel
  rw [hr.run_eq fun _ _ => rfl] at hok
  cases r with
  | ok documents => exact ⟨documents, hr⟩
  | error e => cases hok

/-- A list that is not what the store has does no harm. -/
theorem allPresentable_withList :
    Indexing.AllPresentable .sample Settings.default.loadBatchSize (withField (.arr [.int 5])) := by
  obtain ⟨documents, h⟩ := yields_cacheless_sample
  obtain ⟨connections', c', hr⟩ := reaches_indexWithField (.arr [.int 5])
  have hok : (indexWithField (.arr [.int 5])).isOk = true := by decide +kernel
  refine (returns_iff_allPresentable h rfl hr).1 ?_
  cases hresult : indexWithField (.arr [.int 5]) with
  | ok documents' => exact ⟨documents', rfl⟩
  | error e =>
    rw [hresult] at hok
    cases hok

/-- A number in place of a list is read as a record, and the run fails on it. -/
theorem not_returns_withNumber :
    ¬ ∀ (s : Store) (settings : Settings) (registry : License.Registry) (documents : List Document)
        (connections connections' : Connections) (c c' : Contents)
        (result : Except IndexingError (List Document)),
      Attempt.Yields s (Indexing.run settings false registry) (.ok documents) →
        connections.cache = true →
          Dialogue.Reaches s.steadyWorld ((index settings true registry).run connections) c
            (.done (result, connections')) c' →
              ∃ documents', result = .ok documents' := by
  intro hall
  obtain ⟨documents, h⟩ := yields_cacheless_sample
  obtain ⟨connections', c', hr⟩ := reaches_indexWithField (.int 5)
  have hfails : (indexWithField (.int 5)).isOk = false := by decide +kernel
  obtain ⟨documents', hdocuments⟩ := hall _ _ _ _ _ _ _ _ _ h rfl hr
  rw [hdocuments] at hfails
  cases hfails

end CatalogSearch.Worker
