import CatalogSearch.Proofs.Indexing.Documents
import CatalogSearch.Proofs.Loading.Resolution
import CatalogSearch.Proofs.Loading.Unreliable
import CatalogSearch.Proofs.Publication.Requests
import CatalogSearch.Worker.Job

/-!
# Runs that the store fails

If a run would have its documents, then a query that fails, whichever it is, makes indexing fail
with it and the job report it; nothing is asked of the search engine, and nothing is written to the
cache of the records that the query was asked for (`aborts_of_failedQuery`).
-/

namespace CatalogSearch

open Cache

variable {s : Store} {fate : Command → Fate} {m : Entries}

/-! ### Loads that would succeed -/

namespace Indexing

open Loading

variable {settings : Settings} {cached : Bool} {registry : License.Registry}
  {documents : List Document}

/-- Both loads of a run would succeed if no query failed. -/
structure LoadsSucceed (s : Store) (fate : Command → Fate) (m : Entries) (settings : Settings)
    (cached : Bool) : Prop where
  versions : ∃ found, ((load .versions (loadOptions settings cached none none)
    ((visibleVersions s.visibleRows).map (·.versionId))).run.run (s.sharedWorld fate) m).1 =
      .ok found
  projects : ∃ found, ((load .projects (loadOptions settings cached none none)
    ((visibleVersions s.visibleRows).map (·.projectId))).run.run (s.sharedWorld fate) m).1 =
      .ok found

theorem exists_found {ρ : Type} {k : RecordKind ρ} {records : List Int → List ρ}
    {fit : Int → Prop} {o : LoadOptions} {ids : List Int} (hk : k.Fetches s records fit)
    (hasks : ∀ ids, Store.AsksRows ids (Attempt.queries s (k.fetch ids)))
    (hl : Loadable fit o.batchSize ids) (fate : Command → Fate) (m : Entries) :
    ∃ found, ((load k o ids).run.run (s.sharedWorld fate) m).1 = .ok found := by
  have hmissing : Loadable fit o.batchSize
      (missing k (seen k o fate (distinct ids) m) (distinct ids)) :=
    (loadable_distinct.2 hl).subset List.filter_sublist.subset
  obtain ⟨found, m', log, hrun, -⟩ := run_load hk hasks hmissing
  refine ⟨found, ?_⟩
  rw [← (Dialogue.run_logging _ m []).1, hrun]

theorem loadsSucceed_of_cacheless
    (h : ((run settings false registry).run.run (s.sharedWorld fate) m).1 = .ok documents) :
    LoadsSucceed s fate m settings cached := by
  obtain ⟨r, hr⟩ := settled_run s settings registry
  rw [hr.run_eq (fun _ _ => rfl) m] at h
  subst h
  have hready := (gathered_of_yields hr).1
  exact ⟨exists_found s.fetches_versions s.asksRows_versions hready.versions fate m,
    exists_found s.fetches_projects s.asksRows_projects hready.projects fate m⟩

theorem loads_of_loadBoth {o : LoadOptions} {versionIds projectIds : List Int}
    {both : OrderedMap Int Version × OrderedMap Int Project}
    (h : ((loadBoth o versionIds projectIds).run.run (s.sharedWorld fate) m).1 = .ok both) :
    ((load .versions o versionIds).run.run (s.sharedWorld fate) m).1 = .ok both.1 ∧
      ((load .projects o projectIds).run.run (s.sharedWorld fate)
        ((load .versions o versionIds).run.run (s.sharedWorld fate) m).2).1 = .ok both.2 := by
  rw [loadBoth, run_outcome_bind, run_outcome_bind] at h
  generalize (load .versions o versionIds).run.run (s.sharedWorld fate) m = rv at h ⊢
  generalize (load .projects o projectIds).run.run (s.sharedWorld fate) rv.2 = rp at h ⊢
  obtain ⟨_ | versions, _⟩ := rv
  · cases h
  obtain ⟨_ | projects, _⟩ := rp
  · cases h
  · cases h
    exact ⟨rfl, rfl⟩

theorem loadsSucceed_of_run
    (h : ((run settings cached registry).run.run (s.sharedWorld fate) m).1 = .ok documents) :
    LoadsSucceed s fate m settings cached := by
  have hselect : select.run.run (s.sharedWorld fate) m =
      (.ok (visibleVersions s.visibleRows), m) := rfl
  rw [run, Attempt.run_bind_ok hselect] at h
  cases hboth : (loadBoth (loadOptions settings cached none none)
      ((visibleVersions s.visibleRows).map (·.versionId))
      ((visibleVersions s.visibleRows).map (·.projectId))).run.run (s.sharedWorld fate) m with
  | mk r m₁ =>
    have hloading := Attempt.run_withError (h := s.sharedWorld fate) IndexingError.loading (loadBoth
      (loadOptions settings cached none none) ((visibleVersions s.visibleRows).map (·.versionId))
      ((visibleVersions s.visibleRows).map (·.projectId))) m
    rw [hboth] at hloading
    cases r with
    | error e =>
      rw [Attempt.run_bind_error hloading] at h
      cases h
    | ok both =>
      obtain ⟨hversions, hprojects⟩ := loads_of_loadBoth (congrArg Prod.fst hboth)
      refine ⟨⟨both.1, hversions⟩, both.2, ?_⟩
      rw [← hprojects]
      -- loading the versions leaves the keys of projects as they are
      refine Dialogue.run_congr (asks_loadProjects _ _) fun id => Eq.symm ?_
      apply Dialogue.run_of_not_touches
      exact (asks_loadVersions _ _).imp fun r hr => hr.not_touches RecordKind.cacheKey_ne id

/-! ### Indexing -/

/-- A failed query is what indexing fails with. -/
def Causes (q : Store.Query) (f : Store.Failure) (e : IndexingError) : Prop :=
  e = match q.recordName? with
    | none => .selection f
    | some name => .loading (.store name f)

/-- Indexing has failed with a query on the record, nothing is written that a failed query would have
fed, and there is no call to the search engine. -/
structure Aborted (e : IndexingError) (record : List Exchange) : Prop where
  cause : ∃ q f, ⟨.store q, .error f⟩ ∈ record ∧ Causes q f e
  clean : FailsCleanly record
  silent : ∀ x ∈ record, ¬ x.1.IsCall

/-- A load that would succeed fails with one of its queries only. -/
theorem exists_failed_of_error {ρ : Type} {k : RecordKind ρ} {o : LoadOptions} {ids : List Int}
    {e : LoadError} {l : List Exchange}
    (hcomes : Dialogue.Comes s fate k (load k o ids).run m (.error e) l)
    (hrecord : LoadRecord k (.error e) l)
    (hload : ∃ found, ((load k o ids).run.run (s.sharedWorld fate) m).1 = .ok found) :
    ∃ q f, ⟨.store q, .error f⟩ ∈ l ∧ Causes q f (.loading e) := by
  rcases hrecord.ends with hanswered | ⟨q, f, he, hcut⟩
  · obtain ⟨found, hfound⟩ := hload
    rw [hcomes.run_eq hanswered hrecord.silent m fun _ => rfl] at hfound
    cases hfound
  · refine ⟨q, f, hcut.mem, ?_⟩
    rw [Causes, hrecord.queries q _ hcut.mem]
    cases he
    rfl

/-- Both loads, if both would succeed: whichever has failed has done so because of a query, and if
neither has, no query failed. -/
theorem aborted_of_comes (h : LoadsSucceed s fate m settings cached)
    {versions : Except LoadError (OrderedMap Int Version)}
    {projects : Except LoadError (OrderedMap Int Project)} {l l' record : List Exchange}
    (hv : Dialogue.Comes s fate .versions (load .versions (loadOptions settings cached none none)
      ((visibleVersions s.visibleRows).map (·.versionId))).run m versions l)
    (hp : Dialogue.Comes s fate .projects (load .projects (loadOptions settings cached none none)
      ((visibleVersions s.visibleRows).map (·.projectId))).run m projects l')
    (hl : ∀ x, x ∈ record ↔ x ∈ l ∨ x ∈ l') :
    (∀ e, versions = .error e ∨ projects = .error e → Aborted (.loading e) record) ∧
      (Answered record ∨ ∃ e, versions = .error e ∨ projects = .error e) := by
  have hversions := loadRecord_versions (hv.reaches [])
  have hprojects := loadRecord_projects (hp.reaches [])
  constructor
  · intro e he
    refine ⟨?_, failsCleanly_of_loads hversions hprojects hl, fun x hx => ?_⟩
    · rcases he with rfl | rfl
      · obtain ⟨q, f, hf, hcauses⟩ := exists_failed_of_error hv hversions h.versions
        exact ⟨q, f, (hl _).2 (.inl hf), hcauses⟩
      · obtain ⟨q, f, hf, hcauses⟩ := exists_failed_of_error hp hprojects h.projects
        exact ⟨q, f, (hl _).2 (.inr hf), hcauses⟩
    · exact ((hl x).1 hx).elim (hversions.silent x) (hprojects.silent x)
  · rcases hversions.ends with hanswered | ⟨q, f, rfl, -⟩
    · rcases hprojects.ends with hanswered' | ⟨q, f, rfl, -⟩
      · exact .inl fun x hx => ((hl x).1 hx).elim (hanswered x) (hanswered' x)
      · exact .inr ⟨_, .inr rfl⟩
    · exact .inr ⟨_, .inl rfl⟩

/-- One load after the other: if a query fails, a failed query is what they fail with. -/
theorem ensures_loadBoth (h : LoadsSucceed s fate m settings cached) (t : List Exchange) :
    Attempt.Ensures (Dialogue.keeping (s.unreliableWorld fate)) (fun _ => True)
      (fun _ t' => ∃ record, t'.2 = t ++ record ∧ Answered record)
      (fun e t' => ∃ record, t'.2 = t ++ record ∧ Aborted (.loading e) record)
      (loadBoth (loadOptions settings cached none none)
        ((visibleVersions s.visibleRows).map (·.versionId))
        ((visibleVersions s.visibleRows).map (·.projectId))) (m, t) := by
  rw [loadBoth, Attempt.ensures_outcome_bind]
  refine ((Dialogue.ensures_comes (asks_loadVersions _ _) m t).and
    (Dialogue.ensures_kept s fate _ m t)).mono fun versions t₁ ht₁ => ?_
  obtain ⟨m₁, _⟩ := t₁
  obtain ⟨⟨l, rfl, hl⟩, _, hl', hkept⟩ := ht₁
  cases List.append_cancel_left hl'
  rw [Attempt.ensures_outcome_bind]
  refine (Dialogue.ensures_comes (asks_loadProjects _ _) m₁ _).mono fun projects t₂ ht₂ => ?_
  obtain ⟨m₂, _⟩ := t₂
  obtain ⟨l', rfl, hl'⟩ := ht₂
  have hsame (id : Int) : m₁ (RecordKind.projects.cacheKey id) =
      m (RecordKind.projects.cacheKey id) := by
    refine hkept _ fun x hx hwrites => ?_
    have howns := (loadRecord_versions (hl.reaches [])).owns x hx
    exact howns.not_touches RecordKind.cacheKey_ne id (touches_of_writes hwrites)
  obtain ⟨haborted, hends⟩ := aborted_of_comes h hl (hl'.congr hsame) fun _ => List.mem_append
  have hrecord : t ++ l ++ l' = t ++ (l ++ l') := List.append_assoc ..
  cases versions with
  | error e => exact ⟨l ++ l', hrecord, haborted e (.inl rfl)⟩
  | ok found =>
    cases projects with
    | error e => exact ⟨l ++ l', hrecord, haborted e (.inr rfl)⟩
    | ok found' =>
      rcases hends with hanswered | ⟨e, he⟩
      · exact ⟨l ++ l', hrecord, hanswered⟩
      · cases he <;> contradiction

theorem Aborted.cons {e : IndexingError} {record : List Exchange} {x : Exchange}
    (h : Aborted e record) (hx : x.fails = false) (hspares : x.1.Spares) (hcall : ¬ x.1.IsCall) :
    Aborted e (x :: record) where
  cause := by
    obtain ⟨q, f, hf, hcauses⟩ := h.cause
    exact ⟨q, f, List.mem_cons_of_mem x hf, hcauses⟩
  clean q f hf key hkey := by
    rcases List.mem_cons.1 hf with rfl | hf
    · cases hx
    · exact List.forall_mem_cons.2 ⟨hspares key, h.clean q f hf key hkey⟩
  silent := List.forall_mem_cons.2 ⟨hcall, h.silent⟩

theorem aborted_of_selection (f : Store.Failure) :
    Aborted (.selection f) [⟨.store .visible, .error f⟩] where
  cause := ⟨.visible, f, List.mem_cons_self, rfl⟩
  clean _ _ _ key _ := List.forall_mem_singleton.2 (spares_query .visible key)
  silent := List.forall_mem_singleton.2 id

/-- A run whose loads would succeed: if a query fails, the run fails with it. -/
theorem ensures_selectAborted :
    Attempt.Ensures (Dialogue.keeping (s.unreliableWorld fate)) (fun _ => True)
      (fun visible t' => visible = visibleVersions s.visibleRows ∧
        t' = (m, [⟨.store .visible, .ok s.visibleRows⟩]))
      (fun e t' => Aborted e t'.2) select (m, []) := by
  refine Attempt.ensures_bind.2 (Attempt.ensures_withError.2
    (Attempt.ensures_askStore.2 fun x t' hx => ⟨trivial, ?_⟩))
  obtain ⟨m', l⟩ := t'
  obtain ⟨⟨hx, rfl⟩, hl⟩ := hx
  obtain rfl : l = [⟨.store .visible, x⟩] := hl
  rcases hx with rfl | ⟨f, rfl⟩
  · exact ⟨rfl, rfl⟩
  · exact aborted_of_selection f

theorem ensures_runAborted (h : LoadsSucceed s fate m settings cached) :
    Attempt.Ensures (Dialogue.keeping (s.unreliableWorld fate)) (fun _ => True)
      (fun _ t' => Answered t'.2) (fun e t' => Answered t'.2 ∨ Aborted e t'.2)
      (run settings cached registry) (m, []) := by
  refine Attempt.ensures_bind.2 (ensures_selectAborted.mono ?_ fun _ _ => .inr)
  rintro _ _ ⟨rfl, rfl⟩
  refine Attempt.ensures_bind.2 (Attempt.ensures_withError.2 ((ensures_loadBoth h _).mono ?_ ?_))
  · rintro ⟨versions, projects⟩ t' ⟨record, ht', hanswered⟩
    have ht'answered : Answered t'.2 := by
      rw [ht']
      exact List.forall_mem_cons.2 ⟨rfl, hanswered⟩
    rw [Attempt.ensures_mk_done]
    cases assemble registry versions projects (visibleVersions s.visibleRows) with
    | ok documents => exact ht'answered
    | error e => exact .inl ht'answered
  · rintro e t' ⟨record, ht', haborted⟩
    rw [ht']
    exact .inr (haborted.cons rfl (spares_query .visible) id)

/-- With the cache or without it, a run has its documents if the store answers all queries. -/
def Succeeds (s : Store) (fate : Command → Fate) (m : Entries) (settings : Settings) (cached : Bool)
    (registry : License.Registry) : Prop :=
  ∃ documents, ((run settings false registry).run.run (s.sharedWorld fate) m).1 = .ok documents ∨
    ((run settings cached registry).run.run (s.sharedWorld fate) m).1 = .ok documents

theorem Succeeds.loads (h : Succeeds s fate m settings cached registry) :
    LoadsSucceed s fate m settings cached := by
  obtain ⟨documents, h | h⟩ := h
  · exact loadsSucceed_of_cacheless h
  · exact loadsSucceed_of_run h

/-- A run has failed because of a query, reports it, and leaves the entries that a failed query would
have fed as they were. -/
structure Abandoned (e : IndexingError) (m : Entries) (t : Entries × List Exchange) : Prop
    extends Aborted e t.2 where
  isReported : e.isReported = true
  kept : ∀ q f key, ⟨.store q, .error f⟩ ∈ t.2 → q.Feeds key → t.1 key = m key

theorem Aborted.isReported {e : IndexingError} {record : List Exchange} (h : Aborted e record) :
    e.isReported = true := by
  obtain ⟨q, f, -, rfl⟩ := h.cause
  cases q.recordName? <;> rfl

theorem Aborted.abandoned {e : IndexingError} {t : Entries × List Exchange} (h : Aborted e t.2)
    (hkept : ∀ key, (∀ x ∈ t.2, ¬ x.1.Writes key) → t.1 key = m key) : Abandoned e m t where
  toAborted := h
  isReported := h.isReported
  kept q f key hf hkey := hkept key (h.clean q f hf key hkey)

end Indexing

/-! ### The job -/

theorem Publication.Plan.Requests.isCall {p : Publication.Plan} {r : Request} (h : p.Requests r) :
    r.IsCall := by
  cases h <;> trivial

namespace Worker

open Indexing

variable {settings : Settings} {cached : Bool} {registry : License.Registry} {c : Connections}

/-- Publication asks the store nothing. -/
theorem ensures_publish_answered (settings : Settings) (documents : List Document)
    {t : Entries × List Exchange} (ht : Answered t.2) :
    Worker.Ensures (Dialogue.keeping (s.unreliableWorld fate)) (fun _ => True)
      (fun _ _ t' => Answered t'.2) (fun _ _ t' => Answered t'.2) (publish settings documents) c
      t := by
  have hasks : Asks Request.IsCall (publish settings documents) := by
    refine asks_get.bind fun d => ?_
    split
    · exact asks_ofAttempt ((Publication.asks_publish _).imp fun _ h => h.isCall)
    · exact asks_throw
  have hanswered : Dialogue.Ensures (Dialogue.keeping (s.unreliableWorld fate)) (fun _ => True)
      (fun _ t' => Answered t'.2) ((publish settings documents).run c) t := by
    refine (hasks c).ensures (J := fun t : Entries × List Exchange => Answered t.2) ?_
      (fun _ _ => trivial) ht
    rintro r t x t' hr ht ⟨-, ht'⟩
    have hx : Exchange.fails ⟨r, x⟩ = false := by
      cases r with
      | store q | cache c => exact hr.elim
      | engine call => rfl
    rw [ht']
    exact List.forall_mem_append.2 ⟨ht, List.forall_mem_singleton.2 hx⟩
  exact hanswered.mono fun r t' ht' => by obtain ⟨_ | _, _⟩ := r <;> exact ht'

theorem ensures_indexAborted (h : LoadsSucceed s fate m settings (cached && c.cache)) :
    Worker.Ensures (Dialogue.keeping (s.unreliableWorld fate)) (fun _ => True)
      (fun _ _ t' => Answered t'.2) (fun e _ t' => Answered t'.2 ∨ Aborted e t'.2)
      (index settings cached registry) c (m, []) :=
  ensures_bind.2 (ensures_get.2 (ensures_ofAttempt.2 (ensures_runAborted h)))

theorem ensures_runJobAborted (h : LoadsSucceed s fate m settings (true && c.cache)) :
    Worker.Ensures (Dialogue.keeping (s.unreliableWorld fate)) (fun _ => True)
      (fun r _ t' => Answered t'.2 ∨ ∃ e, r = .failed e.message ∧ Aborted e t'.2)
      (fun _ _ t' => Answered t'.2) (runJob settings registry) c (m, []) := by
  rw [runJob]
  refine ensures_bind.2 (ensures_outcome.2 ((ensures_indexAborted h).mono ?_ ?_))
  · intro documents d t ht
    refine ensures_bind.2 (ensures_outcome.2
      ((ensures_publish_answered settings documents ht).mono ?_ ?_))
    · exact fun n d t ht => .inl ht
    · intro e d t ht
      cases e with
      | failed message => exact .inl ht
      | _ => exact ht
  · intro e d t ht
    rcases ht with ht | ht
    · dsimp only
      split
      · exact .inl ht
      · exact ht
    · dsimp only
      rw [if_pos ht.isReported]
      exact .inr ⟨e, rfl, ht⟩

/-- If a run has its documents when the store answers, then a query that fails, whichever it is,
makes indexing end with an error, and the job report that it failed; nothing is asked of the search
engine, and what is in the cache for the records that a failed query was asked for is as it was. So
it is with the loads of the run done at the same time, in any order of their requests: one of them
fails, and an error of either is such an error. -/
theorem aborts_of_failedQuery :
    (∀ {settings : Settings} {cached : Bool} {registry : License.Registry}
        {result : Except IndexingError (List Document)} {c' : Connections}
        {t : Entries × List Exchange},
      Succeeds s fate m settings (cached && c.cache) registry →
      Dialogue.Reaches (Dialogue.keeping (s.unreliableWorld fate))
        ((index settings cached registry).run c) (m, []) (.done (result, c')) t →
      ¬ Answered t.2 → ∃ e, result = .error e ∧ Abandoned e m t) ∧
    (∀ {settings : Settings} {registry : License.Registry} {result : Except JobError JobReport}
        {c' : Connections} {t : Entries × List Exchange},
      Succeeds s fate m settings (true && c.cache) registry →
      Dialogue.Reaches (Dialogue.keeping (s.unreliableWorld fate))
        ((runJob settings registry).run c) (m, []) (.done (result, c')) t →
      ¬ Answered t.2 → ∃ e, result = .ok (.failed e.message) ∧ Abandoned e m t) ∧
    (∀ {settings : Settings} {cached : Bool} {registry : License.Registry} {τ : Type}
        {handler : (r : Request) → τ → r.Reply × τ} (view : τ → Entries × List Exchange) {t t' : τ}
        {versions : Except LoadError (OrderedMap Int Version)}
        {projects : Except LoadError (OrderedMap Int Project)},
      Succeeds s fate m settings cached registry → view t = (m, []) →
      (∀ r t, Dialogue.keeping (s.unreliableWorld fate) r (view t) (handler r t).1
        (view (handler r t).2)) →
      Dialogue.Interleaves handler
        (Loading.load .versions (loadOptions settings cached none none)
          ((visibleVersions s.visibleRows).map (·.versionId))).run
        (Loading.load .projects (loadOptions settings cached none none)
          ((visibleVersions s.visibleRows).map (·.projectId))).run t versions projects t' →
      ¬ Answered (view t').2 → (∃ e, versions = .error e ∨ projects = .error e) ∧
        ∀ e, versions = .error e ∨ projects = .error e → Abandoned (.loading e) m (view t')) := by
  refine ⟨?_, ?_, ?_⟩
  · intro settings cached registry result c' t hsucceeds hreaches hfailed
    obtain ⟨record, ht, hkept⟩ := (Dialogue.ensures_kept s fate _ m []).rest hreaches
    rw [List.nil_append] at ht
    subst ht
    have hends := (ensures_indexAborted hsucceeds.loads).rest hreaches
    cases result with
    | ok documents => exact absurd hends hfailed
    | error e => exact ⟨e, rfl, (hends.resolve_left hfailed).abandoned hkept⟩
  · intro settings registry result c' t hsucceeds hreaches hfailed
    obtain ⟨record, ht, hkept⟩ := (Dialogue.ensures_kept s fate _ m []).rest hreaches
    rw [List.nil_append] at ht
    subst ht
    have hends := (ensures_runJobAborted hsucceeds.loads).rest hreaches
    cases result with
    | error e => exact absurd hends hfailed
    | ok report =>
      obtain ⟨e, rfl, haborted⟩ := hends.resolve_left hfailed
      exact ⟨e, rfl, haborted.abandoned hkept⟩
  · intro settings cached registry τ handler view t t' versions projects hsucceeds ht hview hi
      hfailed
    obtain ⟨l₁, l₂, l, hrecord, hl, hkept, hversions, hprojects⟩ := hi.exists_comes hview
      RecordKind.cacheKey_ne (Loading.asks_loadVersions _ _) (Loading.asks_loadProjects _ _)
    rw [ht] at hrecord hkept hversions hprojects
    rw [List.nil_append] at hrecord
    subst hrecord
    obtain ⟨haborted, hends⟩ := aborted_of_comes hsucceeds.loads hversions hprojects hl
    exact ⟨hends.resolve_left hfailed, fun e he => (haborted e he).abandoned hkept⟩

/-- With batches of one record, the first query for the second version fails, whether the versions
are loaded first or both loads take turns. -/
theorem aborts_secondBatch :
    let settings : Settings := { Settings.default with loadBatchSize := 1 }
    let visible := visibleVersions Store.sample.visibleRows
    let c : Connections := ⟨true, true⟩
    let m : Entries := fun _ => none
    let world (n : Nat) := Store.sample.failingWorld (fun _ => .answered) n ⟨"connection lost"⟩
    let indexed := ((index settings true .sample).run c).run (world 5) (m, [])
    let reported := ((runJob settings .sample).run c).run (world 5) (m, [])
    let loaded := Dialogue.takeTurns (world 8) [true, false, true, false, false, true, true]
      (Loading.load .versions (loadOptions settings true none none)
        (visible.map (·.versionId))).run
      (Loading.load .projects (loadOptions settings true none none)
        (visible.map (·.projectId))).run (m, [])
    (∃ e, indexed.1.1 = .error e ∧ Abandoned e m indexed.2) ∧
    (∃ e, reported.1.1 = .ok (.failed e.message) ∧ Abandoned e m reported.2) ∧
    (∃ e, loaded.1.1 = .error e ∨ loaded.1.2 = .error e) ∧
      ∀ e, loaded.1.1 = .error e ∨ loaded.1.2 = .error e → Abandoned (.loading e) m loaded.2 := by
  intro settings visible c m world indexed reported loaded
  have hsucceeds : Succeeds .sample (fun _ => .answered) m settings (true && c.cache) .sample := by
    obtain ⟨r, hr⟩ := settled_run .sample settings .sample
    have hok : ((Indexing.run settings false .sample).run.run
        (Store.sample.sharedWorld fun _ => .answered) m).1.isOk = true := by decide +kernel
    rw [hr.run_eq fun _ _ => rfl] at hok
    cases r with
    | ok documents =>
      refine ⟨documents, .inl ?_⟩
      rw [hr.run_eq fun _ _ => rfl]
    | error e => cases hok
  have hfailed {t : Entries × List Exchange} (ht : t.2.any Exchange.fails = true) :
      ¬ Answered t.2 := by
    obtain ⟨x, hx, hfails⟩ := List.any_eq_true.1 ht
    exact fun hanswered => absurd (hanswered x hx) (by rw [hfails]; decide)
  have hworld (n : Nat) (r : Request) (t : Entries × List Exchange) :
      Dialogue.keeping (Store.sample.unreliableWorld fun _ => .answered) r t (world n r t).1
        (world n r t).2 :=
    failingWorld_unreliable .sample (fun _ => .answered) n ⟨"connection lost"⟩ r t
  obtain ⟨hindex, hjob, hloads⟩ := aborts_of_failedQuery (s := .sample) (m := m) (c := c)
  -- The runs are given by equations, since comparing the parts of a run would evaluate it.
  have hindexed (x) (hx : ((index settings true .sample).run c).run (world 5) (m, []) = x)
      (hfails : x.2.2.any Exchange.fails = true) : ∃ e, x.1.1 = .error e ∧ Abandoned e m x.2 := by
    subst hx
    exact hindex hsucceeds (reaches_run (hworld 5) _ c (m, [])) (hfailed hfails)
  have hreported (x) (hx : ((runJob settings .sample).run c).run (world 5) (m, []) = x)
      (hfails : x.2.2.any Exchange.fails = true) :
      ∃ e, x.1.1 = .ok (.failed e.message) ∧ Abandoned e m x.2 := by
    subst hx
    exact hjob hsucceeds (reaches_run (hworld 5) _ c (m, [])) (hfailed hfails)
  have hloaded := hloads id hsucceeds rfl (hworld 8)
    (Dialogue.interleaves_takeTurns [true, false, true, false, false, true, true] _ _ _)
    (hfailed (by decide +kernel))
  exact ⟨hindexed _ rfl (by decide +kernel), hreported _ rfl (by decide +kernel), hloaded⟩

end Worker

end CatalogSearch
