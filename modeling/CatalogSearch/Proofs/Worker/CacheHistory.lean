import CatalogSearch.Proofs.Indexing.Cached
import CatalogSearch.Proofs.Worker.Requests

/-!
# Histories of the cache

The worker with a cache, over histories. A cache that was empty at first is coherent ever after,
whatever happens to it and wherever the worker is broken off (`coherent_of_cacheHistory`), so a run
of the indexing returns the documents that it returns without a cache (`documents_of_cacheHistory`).
-/

namespace CatalogSearch

open Cache

variable {s : Store} {settings : Settings} {registry : License.Registry} {size : Int}
  {c c' : Contents} {connections : Connections}

theorem Cache.Contents.Coherent.of_writesNone {r : Request} {x : r.Reply} (hr : r.WritesNone)
    (hc : c.Coherent s size) (hx : s.cachedWorld r c x c') : c'.Coherent s size := by
  cases r with
  | store q => exact hc.drift hx.2
  | engine call => exact hc.drift hx
  | cache command =>
    obtain ⟨after, hafter, hdrift⟩ := hx
    refine Contents.Coherent.drift ?_ hdrift
    cases command with
    | write key ttl text => exact hr.elim
    | read keys => exact hafter.1 ▸ hc
    | connect connection | ping | close | info => exact hafter ▸ hc

namespace Worker

/-- What a cache can hold that was empty at first, while the worker starts, stops, indexes and runs
its job in any order, under any settings whose batches can stand for those of the size. Each of
these may be broken off between two requests, as when the worker is killed, and may find the worker
connected to any services; between them the cache drifts. -/
inductive CacheHistory (s : Store) (size : Int) : Contents → Prop where
  | start : CacheHistory s size .empty
  | drift {c c' : Contents} : CacheHistory s size c → c.Drifts c' → CacheHistory s size c'
  | startup {c c' : Contents} {settings : Settings} {connections : Connections}
    {rest : Work (Except Publication.Failure Unit × Connections)} :
    CacheHistory s size c →
      Dialogue.Reaches s.cachedWorld ((startup settings).run connections) c rest c' →
        CacheHistory s size c'
  | shutdown {c c' : Contents} {connections : Connections}
    {rest : Work (Except ShutdownError Unit × Connections)} :
    CacheHistory s size c → Dialogue.Reaches s.cachedWorld (shutdown.run connections) c rest c' →
      CacheHistory s size c'
  | index {c c' : Contents} {settings : Settings} {cached : Bool} {registry : License.Registry}
    {connections : Connections} {rest : Work (Except IndexingError (List Document) × Connections)} :
    CacheHistory s size c → Loading.Interchangeable settings.loadBatchSize size →
      Dialogue.Reaches s.cachedWorld ((index settings cached registry).run connections) c rest c' →
        CacheHistory s size c'
  | job {c c' : Contents} {settings : Settings} {registry : License.Registry}
    {connections : Connections} {rest : Work (Except JobError JobReport × Connections)} :
    CacheHistory s size c → Loading.Interchangeable settings.loadBatchSize size →
      Dialogue.Reaches s.cachedWorld ((runJob settings registry).run connections) c rest c' →
        CacheHistory s size c'

theorem ensures_index (hready : Indexing.Ready s settings.loadBatchSize)
    (hc : c.Coherent s settings.loadBatchSize) (cached : Bool) (registry : License.Registry)
    (connections : Connections) :
    Ensures s.cachedWorld (Contents.Coherent s settings.loadBatchSize)
      (fun documents _ c' => c'.Coherent s settings.loadBatchSize ∧
        Indexing.Settles s settings.loadBatchSize registry (.ok documents))
      (fun e _ c' => c'.Coherent s settings.loadBatchSize ∧
        Indexing.Settles s settings.loadBatchSize registry (.error e))
      (index settings cached registry) connections c :=
  ensures_bind.2 (ensures_get.2 (ensures_ofAttempt.2 (Indexing.ensures_run hready hc _ registry)))

theorem ensures_of_asks {ε α : Type} {w : Worker ε α} (hw : Asks Request.WritesNone w)
    (hc : c.Coherent s size) (connections : Connections) :
    Ensures s.cachedWorld (Contents.Coherent s size) (fun _ _ c' => c'.Coherent s size)
      (fun _ _ c' => c'.Coherent s size) w connections c := by
  have hkeep : Dialogue.Ensures s.cachedWorld (Contents.Coherent s size)
      (fun _ c' => Contents.Coherent s size c') (w.run connections) c :=
    (hw connections).ensures
      (fun _ _ _ _ hr hc hx => Contents.Coherent.of_writesNone hr hc hx) (fun _ hc => hc) hc
  refine hkeep.mono fun r c' hc' => ?_
  obtain ⟨_ | _, _⟩ := r <;> exact hc'

/-- The job writes to the cache only while it indexes. -/
theorem ensures_job (hready : Indexing.Ready s settings.loadBatchSize)
    (hc : c.Coherent s settings.loadBatchSize) (registry : License.Registry)
    (connections : Connections) :
    Ensures s.cachedWorld (Contents.Coherent s settings.loadBatchSize)
      (fun _ _ c' => c'.Coherent s settings.loadBatchSize)
      (fun _ _ c' => c'.Coherent s settings.loadBatchSize) (runJob settings registry) connections
      c := by
  refine ensures_bind.2 (ensures_outcome.2 ((ensures_index hready hc _ _ _).mono ?_ ?_))
  · rintro documents connections₁ c₁ ⟨hc₁, -⟩
    refine ensures_bind.2 (ensures_outcome.2
      ((ensures_of_asks (asks_publish settings documents) hc₁ connections₁).mono ?_ ?_))
    · exact fun _ _ _ hc₂ => hc₂
    · intro e _ c₂ hc₂
      cases e <;> exact hc₂
  · rintro e connections₁ c₁ ⟨hc₁, -⟩
    dsimp only
    split <;> exact hc₁

/-- At every request of a history the cache is coherent. -/
theorem coherent_of_cacheHistory (hready : Indexing.Ready s size) (h : CacheHistory s size c) :
    c.Coherent s size := by
  induction h with
  | start => exact Contents.coherent_empty
  | drift _ hdrift ih => exact ih.drift hdrift
  | startup _ hr ih =>
    exact Dialogue.Ensures.invariant (ensures_of_asks (asks_startup _) ih _) ih hr
  | shutdown _ hr ih =>
    exact Dialogue.Ensures.invariant (ensures_of_asks asks_shutdown ih _) ih hr
  -- The run may have batches of another size, so coherence is carried over to this size and back.
  | index _ hsize hr ih =>
    have hc := ih.of_interchangeable hsize.symm
    have hready := hready.of_interchangeable hsize.symm
    refine Contents.Coherent.of_interchangeable hsize ?_
    exact Dialogue.Ensures.invariant (ensures_index hready hc _ _ _) hc hr
  | job _ hsize hr ih =>
    have hc := ih.of_interchangeable hsize.symm
    have hready := hready.of_interchangeable hsize.symm
    refine Contents.Coherent.of_interchangeable hsize ?_
    exact Dialogue.Ensures.invariant (ensures_job hready hc _ _) hc hr

/-- If the run without a cache returns documents, then after any history of the cache, and whatever
the cache does meanwhile, a run with it returns the same documents. -/
theorem documents_of_cacheHistory {documents : List Document}
    (h : Attempt.Yields s (Indexing.run settings false registry) (.ok documents))
    (hc : CacheHistory s settings.loadBatchSize c) {cached : Bool}
    {result : Except IndexingError (List Document)} {connections' : Connections}
    (hr : Dialogue.Reaches s.cachedWorld ((index settings cached registry).run connections) c
      (.done (result, connections')) c') : result = .ok documents := by
  obtain ⟨hready, versions, projects, hg⟩ := Indexing.gathered_of_yields h
  have hpost := (ensures_index hready (coherent_of_cacheHistory hready hc) cached registry
    connections).rest hr
  cases result with
  | ok documents' => exact hpost.2.eq_ok hg
  | error e => exact hpost.2.eq_ok hg

/-- A world in which nothing fails and nothing is forgotten, without a search engine. -/
def remember (s : Store) : (r : Request) → Contents → r.Reply × Contents
  | .store q, c => (.ok (s.answer q), c)
  | .engine _, c => (.error (.error "no engine"), c)
  | .cache (.read keys), c => (.ok (keys.map c), c)
  | .cache (.write key _ text), c => (.ok (), c.set key text)
  | .cache (.connect _), c => (.ok (), c)
  | .cache .ping, c => (.ok (), c)
  | .cache .close, c => (.ok (), c)
  | .cache .info, c => (.ok [], c)

theorem cachedWorld_remember (s : Store) (r : Request) (c : Contents) :
    s.cachedWorld r c (remember s r c).1 (remember s r c).2 := by
  have hdrift (c : Contents) : c.Drifts c := fun _ => .inl rfl
  cases r with
  | store q => exact ⟨rfl, hdrift c⟩
  | engine call => exact hdrift c
  | cache command =>
    refine ⟨_, ?_, hdrift _⟩
    cases command with
    | read keys =>
      refine ⟨rfl, .inr ⟨_, rfl, List.forall₂_map_right_iff.2 ?_⟩⟩
      exact List.forall₂_same.2 fun key _ => .inr rfl
    | write key ttl text => exact ⟨.inr rfl, .inr rfl⟩
    | connect connection | ping | close | info => rfl

/-- The cache after a first run, with one of its texts spoilt. -/
def spoiltContents (s : Store) : Contents :=
  (((index .default true .sample).run ⟨true, false⟩).run (remember s) .empty).2.set
    (RecordKind.versions.cacheKey 9) "[1,"

theorem cacheHistory_spoilt (s : Store) :
    CacheHistory s Settings.default.loadBatchSize (spoiltContents s) := by
  have hrun := Dialogue.reaches_run (cachedWorld_remember s)
    ((index .default true .sample).run ⟨true, false⟩) .empty
  refine .drift (.index .start (.inl rfl) hrun) fun key => ?_
  by_cases hkey : key = RecordKind.versions.cacheKey 9
  · refine .inr (.inr ⟨"[1,", if_pos hkey, fun _ _ => ?_, fun _ _ => ?_⟩) <;> decide +kernel
  · exact .inl (if_neg hkey)

theorem documents_spoilt_sample :
    ((spoiltContents .sample) (RecordKind.versions.cacheKey 7)).isSome ∧
      ∃ documents connections' c', documents.length = 3 ∧
        Dialogue.Reaches Store.sample.cachedWorld
          ((index .default true .sample).run ⟨true, false⟩) (spoiltContents .sample)
          (.done (.ok documents, connections')) c' := by
  refine ⟨by decide +kernel, ?_⟩
  obtain ⟨r, hr⟩ := Indexing.settled_run .sample .default .sample
  have hlength : (((Indexing.run .default false .sample).run.run (remember .sample)
      .empty).1.map List.length).toOption = some 3 := by decide +kernel
  rw [hr.run_eq fun _ _ => rfl] at hlength
  obtain ⟨documents, rfl⟩ : ∃ documents, r = .ok documents := by
    cases r with
    | ok documents => exact ⟨documents, rfl⟩
    | error e => cases hlength
  have hrun := Dialogue.reaches_run (cachedWorld_remember .sample)
    ((index .default true .sample).run ⟨true, false⟩) (spoiltContents .sample)
  rcases hend : ((index .default true .sample).run ⟨true, false⟩).run (remember .sample)
    (spoiltContents .sample) with ⟨⟨result, connections'⟩, c'⟩
  rw [hend] at hrun
  cases documents_of_cacheHistory hr (cacheHistory_spoilt .sample) hrun
  exact ⟨documents, connections', c', Option.some.inj hlength, hrun⟩

end Worker

end CatalogSearch
