import CatalogSearch.Proofs.Document.Presentable
import CatalogSearch.Proofs.Loading.Rules
import CatalogSearch.Proofs.Service.Exchanges
import CatalogSearch.Worker.Job

/-!
# Unreported failures of indexing

Indexing by the exchanges of a run: what the failures come from that the job does not report
(`ensures_runTraced`). A load fails because the store fails, which is reported, because of an
unknown field type, because batches have no size, or because the cache fails in an unexpected way;
and the assembly fails because the store or the cache gave a record that no document can be made of.
-/

namespace CatalogSearch

variable {ρ : Type} {record : List Exchange} {k : RecordKind ρ} {o : LoadOptions} {size : Int}

/-- What the errors of a load come from that the job does not report. -/
inductive LoadError.Unreported (record : List Exchange) (size : Int) : LoadError → Prop where
  | fieldType {ids : List Int} {values : List Store.FieldValue} {e : FieldType.Unknown} :
    ⟨.store (.fieldValues ids), .ok values⟩ ∈ record → Hydration.typedValues values = .error e →
      Unreported record size (.fieldType e)
  | batchSize {e : BatchSizeError} : size = 0 → Unreported record size (.batchSize e)
  | cache {command : Cache.Command} {message : String} :
    ⟨.cache command, .error (.broken message)⟩ ∈ record → Unreported record size (.cache message)

/-- The job reports the error, or it comes from one of the exchanges or the batch size. -/
def LoadError.Traced (record : List Exchange) (size : Int) (e : LoadError) : Prop :=
  (IndexingError.loading e).isReported = true ∨ e.Unreported record size

/-- A record was given of which no document can be made: the store gave a negative number, or the
cache a text that is such a record. -/
inductive GivesUnpresentable (record : List Exchange) : Prop where
  | versionRow {ids : List Int} {rows : List Store.VersionRow} {r : Store.VersionRow} :
    ⟨.store (.versions ids), .ok rows⟩ ∈ record → r ∈ rows → r.id < 0 → GivesUnpresentable record
  | projectRow {ids : List Int} {rows : List Store.ProjectRow} {r : Store.ProjectRow} {n : Int} :
    ⟨.store (.projects ids), .ok rows⟩ ∈ record → r ∈ rows →
      some n ∈ [some r.id, some r.teamId, r.organizationId, some r.threadId] → n < 0 →
        GivesUnpresentable record
  | versionIdRow {ids : List Int} {rows : List Store.VersionRow} {r : Store.VersionRow} :
    ⟨.store (.versionIds ids), .ok rows⟩ ∈ record → r ∈ rows → r.id < 0 →
      GivesUnpresentable record
  | cachedVersion {keys : List String} {texts : List (Option String)} {text : String}
    {v : Version} :
    ⟨.cache (.read keys), .ok texts⟩ ∈ record → some text ∈ texts →
      RecordKind.versions.ofText? text = some v → ¬ v.Presentable → GivesUnpresentable record
  | cachedProject {keys : List String} {texts : List (Option String)} {text : String}
    {p : Project} :
    ⟨.cache (.read keys), .ok texts⟩ ∈ record → some text ∈ texts →
      RecordKind.projects.ofText? text = some p → ¬ p.Presentable → GivesUnpresentable record

/-- The records of a kind that are given are fit, and the errors of fetching them are traced. -/
structure RecordKind.Traced (k : RecordKind ρ) (record : List Exchange) (size : Int)
    (fit : ρ → Prop) : Prop where
  cached : ∀ {keys : List String} {texts : List (Option String)} {text : String} {r : ρ},
    ⟨.cache (.read keys), .ok texts⟩ ∈ record → some text ∈ texts → k.ofText? text = some r → fit r
  fetched : ∀ ids, Attempt.Ensures (Dialogue.among record) (fun _ => True)
    (fun rs _ => ∀ r ∈ rs, fit r) (fun e _ => (Loading.fetchError k e).Traced record size)
    (k.fetch ids) ()

/-! ### Fetching -/

namespace Hydration

theorem presentable_version (loaders projectTypes : List Store.NameOf) (values : List TypedValue)
    {r : Store.VersionRow} (h : 0 ≤ r.id) :
    (version loaders projectTypes values r).Presentable where
  id := h
  fields f hf := by
    obtain ⟨first, -, rfl⟩ := List.mem_map.1 hf
    intro htype _
    have hvalue : (field (values.filter fun v => decide (v.versionId = r.id)) first).value =
        .arr _ := if_pos htype
    rw [hvalue]
    trivial

theorem presentable_project {parts : ProjectParts} {r : Store.ProjectRow}
    (h : ∀ n, some n ∈ [some r.id, some r.teamId, r.organizationId, some r.threadId] → 0 ≤ n)
    (hversions : ∀ v ∈ parts.versions, 0 ≤ v.id) : (project parts r).Presentable where
  id := h _ (by simp [project])
  teamId := h _ (by simp [project])
  organizationId id hid := h id (by simp [← hid, project])
  threadId := h _ (by simp [project])
  versionIds id hid := by
    obtain ⟨v, hv, rfl⟩ := List.mem_map.1 hid
    exact hversions v (List.mem_filter.1 hv).1

variable {α : Type} {ok : α → Unit → Prop} {q : Store.Query} {f : q.Answer → Attempt FetchError α}

theorem ensures_askBind
    (h : ∀ a, ⟨.store q, .ok a⟩ ∈ record → Attempt.Ensures (Dialogue.among record) (fun _ => True)
      ok (fun e _ => (Loading.fetchError k e).Traced record size) (f a) ()) :
    Attempt.Ensures (Dialogue.among record) (fun _ => True) ok
      (fun e _ => (Loading.fetchError k e).Traced record size) (ask q >>= f) () := by
  refine Attempt.ensures_bind.2 (Attempt.ensures_withError.2 (Attempt.ensures_askStore.2 ?_))
  intro r _ hr
  refine ⟨trivial, ?_⟩
  cases r with
  | ok a => exact h a hr
  | error e => exact .inl rfl

theorem ensures_versions (record : List Exchange) (size : Int) (ids : List Int) :
    Attempt.Ensures (Dialogue.among record) (fun _ => True)
      (fun vs _ => ∀ v ∈ vs, ¬ v.Presentable → GivesUnpresentable record)
      (fun e _ => (Loading.fetchError .versions e).Traced record size) (versions ids) () := by
  rw [versions]
  split
  · exact List.forall_mem_nil _
  refine ensures_askBind fun rows hrows => ?_
  split
  · exact List.forall_mem_nil _
  refine ensures_askBind fun loaders _ => ensures_askBind fun projectTypes _ =>
    ensures_askBind fun values hvalues => ?_
  split
  · refine List.forall_mem_map.2 fun r hr hnot => ?_
    refine .versionRow hrows hr (Int.not_le.1 fun hid => hnot ?_)
    exact presentable_version _ _ _ hid
  · next e he => exact .inr (.fieldType hvalues he)

theorem ensures_projects (record : List Exchange) (size : Int) (ids : List Int) :
    Attempt.Ensures (Dialogue.among record) (fun _ => True)
      (fun ps _ => ∀ p ∈ ps, ¬ p.Presentable → GivesUnpresentable record)
      (fun e _ => (Loading.fetchError .projects e).Traced record size) (projects ids) () := by
  rw [projects]
  split
  · exact List.forall_mem_nil _
  refine ensures_askBind fun rows hrows => ?_
  split
  · exact List.forall_mem_nil _
  refine ensures_askBind fun categories _ => ensures_askBind fun versions hversions =>
    ensures_askBind fun gallery _ => ensures_askBind fun links _ =>
    ensures_askBind fun projectTypes _ => ensures_askBind fun games _ =>
    List.forall_mem_map.2 fun r hr hnot => ?_
  by_contra hgives
  refine hnot (presentable_project (fun n hn => Int.not_lt.1 fun hlt => ?_) fun v hv =>
    Int.not_lt.1 fun hlt => ?_)
  · exact hgives (.projectRow hrows hr hn hlt)
  · exact hgives (.versionIdRow hversions hv hlt)

end Hydration

theorem traced_versions (record : List Exchange) (size : Int) :
    RecordKind.versions.Traced record size fun v =>
      ¬ v.Presentable → GivesUnpresentable record where
  cached hread htext hv hnot := .cachedVersion hread htext hv hnot
  fetched := Hydration.ensures_versions record size

theorem traced_projects (record : List Exchange) (size : Int) :
    RecordKind.projects.Traced record size fun p =>
      ¬ p.Presentable → GivesUnpresentable record where
  cached hread htext hp hnot := .cachedProject hread htext hp hnot
  fetched := Hydration.ensures_projects record size

/-! ### Loading -/

namespace Loading

variable {fit : ρ → Prop}

/-- All records of a map are fit. -/
def AllFit (fit : ρ → Prop) (m : OrderedMap Int ρ) : Prop := ∀ id r, m.find? id = some r → fit r

theorem ensures_fetchBatchesTraced (hk : k.Traced record size fit) (chunks : List (List Int)) :
    Attempt.Ensures (Dialogue.among record) (fun _ => True) (fun l _ => ∀ e ∈ l, fit e.2)
      (fun e _ => (fetchError k e).Traced record size) (fetchBatches k chunks) () := by
  induction chunks with
  | nil => exact List.forall_mem_nil _
  | cons c rest ih =>
    refine Attempt.ensures_bind.2 ((hk.fetched c).mono ?_ fun _ _ h => h)
    intro rs _ hrs
    refine Attempt.ensures_bind.2 (ih.mono ?_ fun _ _ h => h)
    intro l _ hl
    exact List.forall_mem_append.2 ⟨List.forall_mem_map.2 hrs, hl⟩

theorem ensures_fetchTraced (hk : k.Traced record o.batchSize fit) (ids : List Int) :
    Attempt.Ensures (Dialogue.among record) (fun _ => True) (fun m _ => AllFit fit m)
      (fun e _ => e.Traced record o.batchSize) (fetch k o ids) () := by
  rw [fetch, batches]
  split
  · next e he =>
    split at he
    · next hzero => exact .inr (.batchSize hzero)
    · cases he
  · next chunks _ =>
    exact Attempt.ensures_bind.2 (Attempt.ensures_withError.2
      ((ensures_fetchBatchesTraced hk chunks).mono (fun _ _ hl => holds_ofList hl)
        fun _ _ h => h))

theorem rules_traced (hk : k.Traced record o.batchSize fit) :
    Rules (Dialogue.among record) (fun _ => True) (fun _ => fit)
      (LoadError.Traced record o.batchSize) k o where
  read {ids _ _ x} _ hx := by
    refine ⟨trivial, ?_, ?_⟩
    · rintro texts rfl
      exact holds_validRecords fun _ _ _ hmem hr => hk.cached hx (List.of_mem_zip hmem).2 hr
    · rintro message rfl
      exact .inr (.cache hx)
  fetch _ := (ensures_fetchTraced hk _).mono (fun _ _ h => ⟨trivial, h⟩) fun _ _ h => ⟨trivial, h⟩
  write _ _ hx := by
    refine ⟨trivial, ?_⟩
    rintro message rfl
    exact .inr (.cache hx)

theorem ensures_loadBothTraced (record : List Exchange) (o : LoadOptions)
    (versionIds projectIds : List Int) :
    Attempt.Ensures (Dialogue.among record) (fun _ => True)
      (fun r _ => AllFit (fun v => ¬ v.Presentable → GivesUnpresentable record) r.1 ∧
        AllFit (fun p => ¬ p.Presentable → GivesUnpresentable record) r.2)
      (fun e _ => e.Traced record o.batchSize) (loadBoth o versionIds projectIds) () :=
  (ensures_loadBoth_of (rules_traced (traced_versions record o.batchSize))
    (rules_traced (traced_projects record o.batchSize)) trivial versionIds projectIds).mono
      (fun _ _ h => h.2) fun _ _ h => h.2

end Loading

/-! ### Indexing -/

/-- What the errors of indexing come from that the job does not report. -/
inductive IndexingError.Unreported (record : List Exchange) (size : Int) :
    IndexingError → Prop where
  | loading {e : LoadError} : e.Unreported record size → Unreported record size (.loading e)
  | assembly {e : AssemblyError} : GivesUnpresentable record → Unreported record size (.assembly e)

/-- The job reports an error of indexing, or it comes from one of the exchanges or the batch
size. -/
theorem Indexing.ensures_runTraced (record : List Exchange) (settings : Settings) (cached : Bool)
    (registry : License.Registry) :
    Attempt.Ensures (Dialogue.among record) (fun _ => True) (fun _ _ => True)
      (fun e _ => e.isReported = true ∨ e.Unreported record settings.loadBatchSize)
      (run settings cached registry) () := by
  refine Attempt.ensures_bind.2 ?_
  refine Attempt.ensures_bind.2 (Attempt.ensures_withError.2 (Attempt.ensures_askStore.2 ?_))
  intro r _ _
  refine ⟨trivial, ?_⟩
  cases r with
  | error e => exact .inl rfl
  | ok rows =>
    have hload := Loading.ensures_loadBothTraced record (loadOptions settings cached none none)
      ((visibleVersions rows).map (·.versionId)) ((visibleVersions rows).map (·.projectId))
    refine Attempt.ensures_bind.2 (Attempt.ensures_withError.2 (hload.mono ?_ ?_))
    · rintro ⟨versions, projects⟩ _ ⟨hversions, hprojects⟩
      refine Attempt.ensures_mk_done.2 ?_
      cases hr : assemble registry versions projects (visibleVersions rows) with
      | ok documents => trivial
      | error e =>
        refine .inr (.assembly ?_)
        by_contra hgives
        obtain ⟨documents, hdocuments⟩ := (exists_assemble registry).2
          fun e (_ : e ∈ visibleVersions rows) project version hproject hversion =>
            ⟨by_contra fun h => hgives (hversions _ _ hversion h),
              by_contra fun h => hgives (hprojects _ _ hproject h)⟩
        cases hr.symm.trans hdocuments
    · rintro e _ (he | he)
      · exact .inl he
      · exact .inr (.loading he)

end CatalogSearch
