import CatalogSearch.Proofs.Loading.Recorded
import CatalogSearch.Proofs.Publication.Uploads
import CatalogSearch.Proofs.Store.Intact
import CatalogSearch.Proofs.Worker.Requests

/-!
# Completed runs

What a run of the job has done when it reports that it is completed, whatever the batch sizes
(`completed_in_batches`). Each id without a record in the cache and each payload is in one of the
batches; but a negative size makes no batch at all, and such a run reports documents that it has not
uploaded.
-/

namespace CatalogSearch

variable {settings : Settings} {registry : License.Registry}
  {connections connections' : Connections} {record record' : List Exchange}

/-! ### Indexing -/

namespace Indexing

/-- The store was asked for the visible versions, and then in batches for what of their versions and
of their projects the cache did not give. -/
def LoadsVisible (size : Int) (record record' : List Exchange) : Prop :=
  ∃ rows missing asked missing' asked',
    (⟨.store .visible, .ok rows⟩ : Exchange) ∈ record' ∧
    askedBatches record' = askedBatches record ++ asked ++ asked' ∧
    RecordKind.versions.AsksMissing size ((visibleVersions rows).map (·.versionId)) missing record'
      asked ∧
    RecordKind.projects.AsksMissing size ((visibleVersions rows).map (·.projectId)) missing' record'
      asked'

theorem LoadsVisible.extend {size : Int} {record'' : List Exchange}
    (h : LoadsVisible size record record') (hasked : askedBatches record'' = askedBatches record')
    (hrecord : record' ⊆ record'') : LoadsVisible size record record'' := by
  obtain ⟨rows, missing, asked, missing', asked', hrows, hbatches, hversions, hprojects⟩ := h
  exact ⟨rows, missing, asked, missing', asked', hrecord hrows, hasked.trans hbatches,
    hversions.extend hrecord, hprojects.extend hrecord⟩

theorem ensures_loadBothRecorded (o : LoadOptions) (versionIds projectIds : List Int)
    (record : List Exchange) :
    Attempt.Ensures Dialogue.recorded (fun _ => True)
      (fun _ record' => ∃ missing asked missing' asked',
        askedBatches record' = askedBatches record ++ asked ++ asked' ∧
        RecordKind.versions.AsksMissing o.batchSize versionIds missing record' asked ∧
        RecordKind.projects.AsksMissing o.batchSize projectIds missing' record' asked')
      (fun _ _ => True) (Loading.loadBoth o versionIds projectIds) record := by
  refine Attempt.ensures_bind.2 (Attempt.ensures_outcome.2
    ((Loading.ensures_loadRecorded Hydration.asksBatch_versions o versionIds record).mono ?_ ?_))
  · rintro versions record₁ ⟨missing, asked, hasked, hversions⟩
    refine Attempt.ensures_bind.2 (Attempt.ensures_outcome.2
      (((Loading.ensures_loadRecorded Hydration.asksBatch_projects o projectIds record₁).and
        (Attempt.ensures_extended _ _)).mono ?_ fun _ _ _ => trivial))
    rintro projects record₂ ⟨⟨missing', asked', hasked', hprojects⟩, hrecord⟩
    exact ⟨missing, asked, missing', asked', hasked ▸ hasked', hversions.extend hrecord, hprojects⟩
  · intro e record₁ _
    refine Attempt.ensures_bind.2 (Attempt.ensures_outcome.2
      (Attempt.ensures_true.mono ?_ fun _ _ _ => trivial))
    exact fun _ _ _ => trivial

theorem ensures_runRecorded (settings : Settings) (cached : Bool) (registry : License.Registry)
    (record : List Exchange) :
    Attempt.Ensures Dialogue.recorded (fun _ => True)
      (fun _ record' => LoadsVisible settings.loadBatchSize record record') (fun _ _ => True)
      (run settings cached registry) record := by
  refine Attempt.ensures_bind.2 (Attempt.ensures_bind.2
    (Attempt.ensures_withError.2 (Attempt.ensures_askStore.2 ?_)))
  rintro (_ | rows) _ rfl
  · exact ⟨trivial, trivial⟩
  refine ⟨trivial, Attempt.ensures_bind.2 (Attempt.ensures_withError.2
    (((ensures_loadBothRecorded _ _ _ _).and (Attempt.ensures_extended _ _)).mono ?_
      fun _ _ _ => trivial))⟩
  rintro loaded record₁ ⟨⟨missing, asked, missing', asked', hasked, hversions, hprojects⟩, hrecord⟩
  have hdone : LoadsVisible settings.loadBatchSize record record₁ :=
    ⟨rows, missing, asked, missing', asked', hrecord (List.mem_append_right _ List.mem_cons_self),
      askedBatches_concat (r := .store .visible) rfl _ record ▸ hasked, hversions, hprojects⟩
  refine Attempt.ensures_mk_done.2 ?_
  cases assemble registry loaded.1 loaded.2 (visibleVersions rows) with
  | ok documents => exact hdone
  | error e => trivial

end Indexing

/-! ### The job -/

namespace Publication

theorem Plan.Requests.not_asksRows {p : Plan} {r : Request} (h : p.Requests r) :
    r.asksRows = false := by
  cases h <;> rfl

end Publication

namespace Worker

/-- What a run of the job has done when it reports that it is completed with a number of documents:
the ids of the visible versions and of their projects were asked for, and as many payloads were cut
into batches that were uploaded. -/
def Completed (settings : Settings) (record record' : List Exchange) (n : Nat) : Prop :=
  Indexing.LoadsVisible settings.loadBatchSize record record' ∧
    ∃ payloads uploads, payloads.length = n ∧
      Batched settings.uploadBatchSize payloads uploads ∧
      Publication.Uploaded (settings.indexName ++ "_rebuild") uploads record'

theorem ensures_jobCompleted
    (h : Publication.Uploaded (settings.indexName ++ "_rebuild") [] record) :
    Ensures Dialogue.recorded (fun _ => True)
      (fun report _ record' => ∀ n, report = .completed n → Completed settings record record' n)
      (fun _ _ _ => True) (runJob settings registry) connections record := by
  have hindex : Ensures Dialogue.recorded (fun _ => True)
      (fun _ _ record₁ => Indexing.LoadsVisible settings.loadBatchSize record record₁ ∧
        Publication.Uploaded (settings.indexName ++ "_rebuild") [] record₁)
      (fun _ _ _ => True) (index settings true registry) connections record := by
    refine ensures_bind.2 (ensures_get.2 (ensures_ofAttempt.2 ?_))
    refine ((Indexing.ensures_runRecorded settings _ _ record).and (h.ensures ?_)).mono
      (fun _ _ h => h) fun _ _ _ => trivial
    exact Indexing.asks_run (fun _ => rfl) (fun _ _ => rfl) (fun _ _ _ _ => rfl) settings _
  refine ensures_bind.2 (ensures_outcome.2 (hindex.mono ?_ ?_))
  · rintro documents connections₁ record₁ ⟨hloads, hnone⟩
    refine ensures_bind.2 (ensures_outcome.2 (ensures_bind.2 (ensures_get.2 ?_)))
    split
    · refine ensures_ofAttempt.2 ((((Publication.ensures_publishUploads
        (p := Publication.planOf settings documents) hnone).and
        (ensures_askedSame ((Publication.asks_publish _).imp fun _ hr => hr.not_asksRows) _)).and
        (Attempt.ensures_extended _ _)).mono ?_ ?_)
      · rintro _ record₂ ⟨⟨⟨rfl, uploads, hbatches, huploaded⟩, hasked⟩, hrecord⟩ n ⟨⟩
        exact ⟨hloads.extend hasked hrecord, _, uploads, rfl, hbatches, huploaded⟩
      · rintro (message | _ | message | _) record₂ -
        · rintro n ⟨⟩
        all_goals trivial
    · trivial
  · intro e _ record₁ _
    dsimp only
    split
    · rintro n ⟨⟩
    · trivial

/-- A list is cut whole, or refused, just if the size is not negative or there is nothing to cut. A
publication that returns has uploaded the batches of its payloads and nothing else, one after the
other, which is all of them just if the size is positive or there are none. A run of the job that
reports that it is completed has done so too, and has asked for the ids of all that is visible in
batches but for what the cache gave. -/
theorem completed_in_batches {α : Type} (size : Int) (l : List α) (p : Publication.Plan)
    (settings : Settings) (connections : Connections) :
    (((∃ e, batches size l = .error e) ∨ ∃ chunks, batches size l = .ok chunks ∧
      Sliced size l chunks) ↔ 0 ≤ size ∨ l = []) ∧
    (∀ (n : Nat) (record : List Exchange),
      Dialogue.Reaches Dialogue.recorded (Publication.publish p).run [] (.done (.ok n)) record →
        n = p.payloads.length ∧
        (∃ chunks, Batched p.batchSize p.payloads chunks ∧
          Publication.Uploaded p.rebuildIndex chunks record) ∧
        ((∃ chunks, chunks.flatten = p.payloads ∧
          Publication.Uploaded p.rebuildIndex chunks record) ↔
            0 < p.batchSize ∨ p.payloads = [])) ∧
    ∀ (registry : License.Registry) (connections' : Connections) (n : Nat) (record : List Exchange),
      Dialogue.Reaches Dialogue.recorded ((runJob settings registry).run connections) []
        (.done (.ok (.completed n), connections')) record → Completed settings [] record n := by
  refine ⟨refused_or_sliced_iff, fun n record hr => ?_, fun _ _ n record hr => ?_⟩
  · obtain ⟨hn, chunks, hbatched, h⟩ := (Publication.ensures_publishUploads .start).rest hr
    exact ⟨hn, ⟨chunks, hbatched, h⟩, Publication.uploaded_whole_iff hbatched h⟩
  · exact (ensures_jobCompleted .start).rest hr n rfl

/-- A search engine on which everything succeeds, beside the sample store without a cache. -/
def readyServices : (r : Request) → r.Reply
  | .store q => .ok (Store.sample.answer q)
  | .cache _ => .error (.unreachable "no cache")
  | .engine (.wait _ _) => .ok "succeeded"
  | .engine (.configure _ _) | .engine (.addDocuments _ _ _) | .engine (.swap _)
  | .engine (.stats _) => .ok 0
  | .engine (.connect _ _ _) | .engine .close | .engine .health | .engine (.deleteIndex _)
  | .engine (.createIndex _ _) | .engine (.getIndex _) => .ok ()

/-- The plan of three documents in batches of a size. -/
def threePlan (size : Int) : Publication.Plan :=
  ⟨"projects", size, [.ofList [("version_id", .str "1")], .ofList [("version_id", .str "2")],
    .ofList [("version_id", .str "3")]]⟩

/-- The record of its publication. -/
def threeRecord (size : Int) : List Exchange :=
  ((Publication.publish (threePlan size)).run.run (Dialogue.recording readyServices) []).2

theorem reaches_threePlan (size : Int)
    (h : ((Publication.publish (threePlan size)).run.run
      (Dialogue.recording readyServices) []).1 = .ok 3) :
    Dialogue.Reaches Dialogue.recorded (Publication.publish (threePlan size)).run []
      (.done (.ok 3)) (threeRecord size) := by
  rw [← h]
  exact Dialogue.reaches_run (fun _ _ => rfl) _ _

theorem completed_in_batches_three : ∃ chunks, chunks.flatten = (threePlan 2).payloads ∧
    Publication.Uploaded "projects_rebuild" chunks (threeRecord 2) := by
  obtain ⟨-, -, hwhole⟩ := (completed_in_batches 2 [1, 2, 3] (threePlan 2) .default ⟨true, true⟩).2.1
    3 _ (reaches_threePlan 2 (by decide +kernel))
  exact hwhole.2 (.inl (by decide))

/-- With batches of a negative size nothing is uploaded, and three documents are reported. -/
theorem not_whole_in_batches :
    ¬ (∀ (size : Int) (l : List Int), (∃ e, batches size l = .error e) ∨
      ∃ chunks, batches size l = .ok chunks ∧ Sliced size l chunks) ∧
    ¬ ∀ (p : Publication.Plan) (n : Nat) (record : List Exchange),
      Dialogue.Reaches Dialogue.recorded (Publication.publish p).run [] (.done (.ok n)) record →
        ∃ chunks, chunks.flatten = p.payloads ∧
          Publication.Uploaded p.rebuildIndex chunks record := by
  constructor
  · intro h
    have hnone : batches (-1) [(7 : Int)] = .ok [] := by rw [batches]; decide +kernel
    rcases h (-1) [7] with ⟨e, he⟩ | ⟨chunks, hchunks, hsliced⟩
    · cases hnone.symm.trans he
    · cases hnone.symm.trans hchunks
      exact absurd hsliced.flatten (by decide)
  · intro h
    obtain ⟨chunks, hchunks, huploaded⟩ :=
      h _ _ _ (reaches_threePlan (-1) (by decide +kernel))
    have hcount : (threeRecord (-1)).countP (·.1.uploads) = 0 := by decide +kernel
    rw [huploaded.countP_eq, List.length_eq_zero_iff] at hcount
    subst hcount
    exact absurd hchunks (by decide)

end Worker

end CatalogSearch
