import CatalogSearch.Proofs.Indexing.Unreported
import CatalogSearch.Proofs.Publication.Unreported
import CatalogSearch.Proofs.Store.Intact
import Mathlib.Control.Monad.Basic

/-!
# What the job reports

With a search engine, a run of the job that is not cancelled reports that it is completed or failed
but in a few cases, and each of them is seen in its exchanges or settings (`reports_of_recorded`).
-/

namespace CatalogSearch.Worker

variable {settings : Settings} {registry : License.Registry}
  {connections connections' : Connections} {record : List Exchange}

/-- What comes of a run that reports nothing: indexing failed in a way that is not expected, or the
last thing that the run did was to delete the second index, and this failed. -/
inductive Unreported (settings : Settings) (record : List Exchange) : JobError → Prop where
  | indexing {e : IndexingError} :
    e.Unreported record settings.loadBatchSize → Unreported settings record (.indexing e)
  | cleanUp {message : String} :
    record.getLast? = some ⟨.engine (.deleteIndex (settings.indexName ++ "_rebuild")),
      .error (.error message)⟩ → Unreported settings record (.publication (.uncaught message))

theorem ensures_indexRecorded (settings : Settings) (cached : Bool) (registry : License.Registry)
    (connections : Connections) (t : List Exchange) :
    Ensures Dialogue.recorded (fun _ => True) (fun _ c _ => c = connections)
      (fun e _ t' => e.isReported = true ∨ e.Unreported t' settings.loadBatchSize)
      (index settings cached registry) connections t := by
  refine ensures_bind.2 (ensures_get.2 (ensures_ofAttempt.2 ?_))
  have hrun : Attempt.Ensures Dialogue.recorded (fun _ => True) (fun _ _ => True)
      (fun e t' => e.isReported = true ∨ e.Unreported t' settings.loadBatchSize)
      (Indexing.run settings (cached && connections.cache) registry) t :=
    Attempt.ensures_recorded fun record => Indexing.ensures_runTraced record settings _ registry
  exact hrun.mono (fun _ _ _ => rfl) fun _ _ h => h

theorem ensures_jobRecorded (hengine : connections.engine = true) (t : List Exchange) :
    Ensures Dialogue.recorded (fun _ => True) (fun _ _ _ => True)
      (fun e _ t' => t'.any Exchange.cancels = true ∨ Unreported settings t' e)
      (runJob settings registry) connections t := by
  refine ensures_bind.2 (ensures_outcome.2
    ((ensures_indexRecorded settings true _ connections t).mono ?_ ?_))
  · rintro documents _ t₁ rfl
    refine ensures_bind.2 (ensures_outcome.2 (ensures_bind.2 (ensures_get.2 ?_)))
    rw [if_pos hengine]
    refine ensures_ofAttempt.2
      ((Publication.ensures_publishRecorded (Publication.planOf settings documents) t₁).mono
        (fun _ _ _ => trivial) fun e t₂ he => ?_)
    match e with
    | .failed message => trivial
    | .cancelled => exact .inl he
    | .uncaught message => exact .inr (.cleanUp he)
  · intro e _ t₁ he
    dsimp only
    split
    · trivial
    · next hnot => exact .inr (.indexing (he.resolve_left hnot))

/-- Whatever the services answer to a run of the job, if none of it cancels the run, the run reports
that it is completed or failed. It reports nothing only if a row of the store has an unknown field
type, batches have no size, the cache fails in an unexpected way, the store or the cache gives a
record that no document can be made of, or the last call, which deletes the second index, fails. -/
theorem reports_of_recorded (hengine : connections.engine = true)
    (hcancels : record.any Exchange.cancels = false) {result : Except JobError JobReport}
    (h : Dialogue.Reaches Dialogue.recorded ((runJob settings registry).run connections) []
      (.done (result, connections')) record) :
    (∃ report, result = .ok report) ∨ ∃ e, result = .error e ∧ Unreported settings record e := by
  have hpost := (ensures_jobRecorded hengine []).rest h
  cases result with
  | ok report => exact .inl ⟨report, rfl⟩
  | error e =>
    refine .inr ⟨e, rfl, Or.resolve_left hpost fun hany => ?_⟩
    rw [hcancels] at hany
    cases hany

/-- A search engine that is down, but for deletions if it takes them. -/
def downEngine (deletes : Bool) : (r : Request) → r.Reply
  | .store q => .ok (Store.sample.answer q)
  | .cache _ => .error (.unreachable "no cache")
  | .engine (.deleteIndex _) => if deletes then .ok () else .error (.error "connection refused")
  | .engine _ => .error (.error "connection refused")

/-- A run of the job with it. -/
def downRun (deletes : Bool) : (Except JobError JobReport × Connections) × List Exchange :=
  ((runJob .default .sample).run ⟨true, true⟩).run (Dialogue.recording (downEngine deletes)) []

theorem reaches_downRun (deletes : Bool) :
    Dialogue.Reaches Dialogue.recorded ((runJob .default .sample).run ⟨true, true⟩) []
      (.done ((downRun deletes).1.1, (downRun deletes).1.2)) (downRun deletes).2 :=
  Dialogue.reaches_run (fun _ _ => rfl) _ _

theorem reports_downRun :
    (downRun true).1.1 = .ok (.failed "Failed to publish search documents: connection refused") ∧
      ((∃ report, (downRun true).1.1 = .ok report) ∨
        ∃ e, (downRun true).1.1 = .error e ∧ Unreported .default (downRun true).2 e) :=
  ⟨by decide +kernel, reports_of_recorded rfl (by decide +kernel) (reaches_downRun true)⟩

/-- A search engine that takes no call at all makes the run end without a report. -/
theorem not_reports_downRun :
    ¬ ∀ (settings : Settings) (registry : License.Registry) (connections connections' : Connections)
        (record : List Exchange) (result : Except JobError JobReport),
      connections.engine = true → record.any Exchange.cancels = false →
        Dialogue.Reaches Dialogue.recorded ((runJob settings registry).run connections) []
          (.done (result, connections')) record →
            ∃ report, result = .ok report := by
  intro h
  have hresult : (downRun false).1.1 = .error (.publication (.uncaught "connection refused")) := by
    decide +kernel
  obtain ⟨report, hreport⟩ := h _ _ _ _ _ _ rfl (by decide +kernel) (reaches_downRun false)
  cases hresult.symm.trans hreport

end CatalogSearch.Worker
