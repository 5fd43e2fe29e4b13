import CatalogSearch.Proofs.Document.Payload
import CatalogSearch.Proofs.Indexing.Documents
import CatalogSearch.Proofs.Publication.Rebuild
import CatalogSearch.Worker.Job

/-!
# From the store to the live index

The job of the worker without a cache. If it is completed, the live index holds the documents of all
visible versions and nothing else (`visible_documents_served`).
-/

namespace CatalogSearch

open Engine Publication

/-- A store that answers all queries, and a search engine that may fail at any call. -/
def Store.world (s : Store) : Behaviour Request Request.Reply Server
  | .store q, u, r, u' => r = .ok (s.answer q) ∧ u' = u
  | .cache _, u, _, u' => u' = u
  | .engine c, u, r, u' => ∃ effect, u.Turn c effect r u'

namespace Worker

variable {s : Store} {settings : Settings} {registry : License.Registry}
  {documents : List Document}

theorem nodup_find?_payloads (h : (documents.map Document.versionId).Nodup) :
    ((payloads documents).map (·.find? primaryKey)).Nodup := by
  have hids : (payloads documents).map (·.find? primaryKey) =
      (documents.map Document.versionId).map fun id => some (.str id) := by
    rw [payloads, List.map_map, List.map_map]
    exact List.map_congr_left fun d _ => Document.find?_payload List.mem_cons_self
  rw [hids]
  exact h.map fun a b hab => Json.str.inj (Option.some.inj hab)

/-- Documents with different ids that are published are what the live index serves. -/
theorem ensures_publish (hup : 1 ≤ settings.uploadBatchSize)
    (hn : (documents.map Document.versionId).Nodup) (u : Server) :
    Attempt.Ensures s.world (fun _ => True)
      (fun n u' => n = documents.length ∧ u'.served settings.indexName = payloads documents)
      (fun _ _ => True) (Publication.publish (planOf settings documents)) u := by
  refine Dialogue.Ensures.simulate (B := Ledger.turn (payloads documents))
    (R := fun u l => l.server = u) ?_ (fun _ _ _ _ => trivial) ?_
    (Publication.ensures_publish (p := planOf settings documents) hup
      (show Ledger.Sound settings.indexName (u.served settings.indexName) ⟨u, none⟩ from rfl)) rfl
  · rintro r _ x u' l rfl hx
    cases r with
    | store q => exact ⟨l, rfl, hx.2.symm⟩
    | cache c => exact ⟨l, rfl, hx.symm⟩
    | engine c =>
      obtain ⟨effect, hturn⟩ := hx
      exact ⟨l.after (payloads documents) effect u' c, ⟨effect, u', hturn, rfl⟩, by cases c <;> rfl⟩
  · rintro r _ l rfl h
    cases r with
    | error e => trivial
    | ok n =>
      obtain ⟨hl, hswapped, hlen⟩ := h
      rw [Ledger.Sound, hswapped] at hl
      exact ⟨hlen.trans (List.length_map ..),
        hl.trans (lastBy_of_nodup (nodup_find?_payloads hn))⟩

/-- The live index serves the documents of a run without a cache, so many of them. -/
def Published (s : Store) (settings : Settings) (registry : License.Registry) (n : Nat)
    (u : Server) : Prop :=
  ∃ documents, Attempt.Yields s (Indexing.run settings false registry) (.ok documents) ∧
    n = documents.length ∧ u.served settings.indexName = payloads documents

theorem answersFrom_world (s : Store) (u : Server) : Dialogue.AnswersFrom s s.world (· = u) := by
  rintro q _ x u' rfl h
  exact h

theorem ensures_runJob (hs : s.Intact) (hload : 1 ≤ settings.loadBatchSize)
    (hup : 1 ≤ settings.uploadBatchSize) {c : Connections} (hc : c.cache = false) (u : Server) :
    Ensures s.world (fun _ => True)
      (fun report _ u' => ∀ n, report = .completed n → Published s settings registry n u')
      (fun _ _ _ => True) (runJob settings registry) c u := by
  refine ensures_bind.2 (ensures_outcome.2 (ensures_bind.2 (ensures_get.2
    (ensures_ofAttempt.2 ?_))))
  rw [hc, Bool.and_false]
  obtain ⟨r, hr⟩ := Indexing.settled_run s settings registry
  refine hr.ensures (answersFrom_world s u) rfl (fun _ _ => trivial) ?_
  rintro u rfl
  cases r with
  | error e =>
    dsimp only [onResult]
    split
    · exact fun n hn => nomatch hn
    · trivial
  | ok documents =>
    have hn := Indexing.nodup_versionId_of_depicts s.nodup_versionId
      (Indexing.depicts_of_yields hs hload hr)
    dsimp only [onResult]
    refine ensures_bind.2 (ensures_outcome.2 (ensures_bind.2 (ensures_get.2 ?_)))
    split
    · refine ensures_ofAttempt.2 ((ensures_publish hup hn u).mono ?_ fun e u' _ => ?_)
      · rintro n u' ⟨hlen, hserved⟩ m hm
        cases hm
        exact ⟨documents, hr, hlen, hserved⟩
      · cases e with
        | failed message => exact fun n hn => nomatch hn
        | cancelled | uncaught | notInitialised => trivial
    · trivial

/-- Without a cache, the documents of an intact store are those of its visible versions, in their
order and under different ids, and a completed run of the job leaves as many documents in the live
index as it reports, one of each visible version. -/
theorem visible_documents_served (hs : s.Intact) (hload : 1 ≤ settings.loadBatchSize)
    (hup : 1 ≤ settings.uploadBatchSize) :
    ∃ visible, Attempt.Yields s Indexing.select (.ok visible) ∧
      (∀ registry documents,
        Attempt.Yields s (Indexing.run settings false registry) (.ok documents) →
          (documents.map fun d => (Except.ok d.versionId, Except.ok d.projectId, d.author)) =
            visible.map (fun e =>
              (Base62.encode e.versionId, Base62.encode e.projectId, e.owner)) ∧
          (documents.map Document.versionId).Nodup ∧
          ∀ d ∈ documents, d.status = "approved" ∨ d.status = "archived") ∧
      ∀ (registry : License.Registry) (c c' : Connections) (u u' : Server) (n : Nat),
        c.cache = false →
        Dialogue.Reaches s.world ((runJob settings registry).run c) u
          (.done (.ok (.completed n), c')) u' →
          (u'.served settings.indexName).length = n ∧
          List.Forall₂ (fun e p => ∃ id, Base62.encode e.versionId = .ok id ∧
            p.find? primaryKey = some (.str id)) visible (u'.served settings.indexName) := by
  refine ⟨_, Indexing.yields_select.2 rfl, fun registry documents hd => ?_,
    fun registry c c' u u' n hc hr => ?_⟩
  · have h := Indexing.depicts_of_yields hs hload hd
    refine ⟨Indexing.map_ids_of_depicts h,
      Indexing.nodup_versionId_of_depicts s.nodup_versionId h, fun d hmem => ?_⟩
    obtain ⟨e, -, he⟩ := Indexing.exists_depicts h hmem
    exact he.status
  · have hpublished := (ensures_runJob hs hload hup hc u).rest hr
    obtain ⟨documents, hd, rfl, hserved⟩ := hpublished n rfl
    have h := Indexing.depicts_of_yields hs hload hd
    rw [hserved, payloads]
    refine ⟨List.length_map .., List.forall₂_map_right_iff.2 (h.imp fun e d he => ?_)⟩
    exact ⟨d.versionId, he.versionId, Document.find?_payload List.mem_cons_self⟩

/-- A world in which nothing fails but the cache. -/
def serve (s : Store) : (r : Request) → Server → r.Reply × Server
  | .store q, u => (.ok (s.answer q), u)
  | .cache _, u => (.error (.unreachable "no cache"), u)
  | .engine c, u => u.serve c

theorem world_serve (s : Store) (r : Request) (u : Server) :
    s.world r u (serve s r u).1 (serve s r u).2 := by
  cases r with
  | store q => exact ⟨rfl, rfl⟩
  | cache c => rfl
  | engine c => exact ⟨_, u.turn_serve c⟩

theorem visible_documents_served_sample :
    ∃ u', Dialogue.Reaches Store.sample.world ((runJob .default .sample).run ⟨false, true⟩)
        ⟨fun _ => none, []⟩ (.done (.ok (.completed 3), ⟨false, true⟩)) u' ∧
      (u'.served "projects").length = 3 := by
  obtain ⟨visible, -, -, hjob⟩ := visible_documents_served Store.intact_sample
    (show 1 ≤ Settings.default.loadBatchSize by decide)
    (show 1 ≤ Settings.default.uploadBatchSize by decide)
  have hr := Dialogue.reaches_run (world_serve .sample)
    ((runJob .default .sample).run ⟨false, true⟩) ⟨fun _ => none, []⟩
  have hreport : (((runJob .default .sample).run ⟨false, true⟩).run (serve .sample)
      ⟨fun _ => none, []⟩).1 = (.ok (.completed 3), ⟨false, true⟩) := by decide +kernel
  rw [hreport] at hr
  exact ⟨_, hr, (hjob _ _ _ _ _ 3 rfl hr).1⟩

end Worker

end CatalogSearch
