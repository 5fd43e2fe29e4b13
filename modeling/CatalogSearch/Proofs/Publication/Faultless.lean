import CatalogSearch.Proofs.Document.Payload
import CatalogSearch.Proofs.Publication.Chronicle

/-!
# Publications in which nothing fails

Whatever the search engine holds at first, the second index is made anew with all settings before it
is given a document, takes one payload of each version, and is the live index in the end
(`publish_faultless`).
-/

namespace CatalogSearch.Publication

open Engine Chronicle

/-! ### Tasks -/

/-- The call is answered with the number of a new task, which has succeeded iff the call took
effect. -/
structure Begins (c : Call) (task : c.Answer → Nat) : Prop where
  tasks : ∀ s effect a, (Server.record s effect c a).tasks = (task a, effect) :: s.tasks
  new : ∀ {s : Server} {effect a}, s.Admits effect c a → task a ∉ s.tasks.map Prod.fst

theorem begins_configure (name : String) (setting : IndexSetting) :
    Begins (.configure name setting) id := ⟨fun _ _ _ => rfl, id⟩

theorem begins_addDocuments (name : String) (documents : List Payload) (primaryKey : String) :
    Begins (.addDocuments name documents primaryKey) id := ⟨fun _ _ _ => rfl, id⟩

theorem begins_swap (pairs : List (String × String)) : Begins (.swap pairs) id :=
  ⟨fun _ _ _ => rfl, id⟩

variable {p : Plan} {w : Chronicle} {i : Index}

/-- If a task is waited for and succeeds, its call took effect. -/
theorem ensures_task {c : Call} {task : c.Answer → Nat} (hc : Begins c task)
    (timeout : Option Nat) :
    Attempt.Ensures turn (fun _ => True)
      (fun _ w' => ∃ a t server, w.server.perform c = some t ∧ server.indexes = t.indexes ∧
        w' = (w.after (c := c) (.ok a) server).after (c := .wait (task a) timeout)
          (.ok "succeeded") server)
      (fun _ _ => True) (do await (task (← ask c)) timeout) w := by
  refine Attempt.ensures_bind.2 (Attempt.ensures_withError.2 (Attempt.ensures_askEngine.2 ?_))
  rintro r _ ⟨effect, server, hturn, rfl⟩
  refine ⟨trivial, ?_⟩
  cases r with
  | error e => trivial
  | ok a =>
    refine Attempt.ensures_bind.2 (Attempt.ensures_withError.2 (Attempt.ensures_askEngine.2 ?_))
    rintro r _ ⟨effect', server', hwait, rfl⟩
    refine ⟨trivial, ?_⟩
    obtain ⟨rfl, hstatus⟩ := hwait.wait
    cases r with
    | error e => trivial
    | ok status =>
      show Attempt.Ensures _ _ _ _ (if status = "succeeded" then _ else _) _
      split
      · next h =>
        subst h
        cases hturn with
        | done ht a ha => exact ⟨a, _, _, ht, Server.indexes_record .., rfl⟩
        | undone a ha =>
          -- The number is new, so the task that succeeded would be one that had no effect.
          have htask : (task a, true) ∈ (w.server.record false c a).tasks := (hstatus _ rfl).1 rfl
          rw [hc.tasks] at htask
          exact absurd ((Server.mem_record_tasks (hc.new ha)).1 htask) Bool.false_ne_true
      · trivial

/-! ### The second index -/

namespace Chronicle

/-- Every upload so far met an index with all settings. -/
def Configured (w : Chronicle) : Prop :=
  ∀ x ∈ w.steps, ∀ name documents primaryKey, x.call = .addDocuments name documents primaryKey →
    ∃ i, x.met.indexes name = some i ∧ i.settings = indexSettings

/-- The second index is the given one, and every upload so far met an index with all settings. -/
structure Prepared (w : Chronicle) (p : Plan) (i : Index) : Prop where
  index : w.server.indexes p.rebuildIndex = some i
  configured : w.Configured

theorem Configured.after {c : Call} {r : Except Fault c.Answer} {server : Server}
    (hw : w.Configured)
    (hc : ∀ name documents primaryKey, c = .addDocuments name documents primaryKey →
      ∃ i, w.server.indexes name = some i ∧ i.settings = indexSettings) :
    (w.after r server).Configured := by
  intro x hx
  rcases List.mem_append.1 hx with hx | hx
  · exact hw x hx
  · obtain rfl := List.mem_singleton.1 hx
    exact hc

theorem Configured.after_task {c : Call} {task : Nat} {timeout : Option Nat} {a : c.Answer}
    {server : Server} (hw : w.Configured)
    (hc : ∀ name documents primaryKey, c = .addDocuments name documents primaryKey →
      ∃ i, w.server.indexes name = some i ∧ i.settings = indexSettings) :
    ((w.after (c := c) (.ok a) server).after (c := .wait task timeout)
      (.ok "succeeded") server).Configured :=
  (hw.after hc).after nofun

end Chronicle

/-- A call without a task that returns, took effect. -/
theorem ensures_done {ε : Type} {f : Fault → ε} {c : Call}
    (hc : ∀ s a, ¬ Server.Admits s false c a) (hr : ∀ s a, Server.record s true c a = s) :
    Attempt.Ensures turn (fun _ => True)
      (fun a w' => ∃ t, w.server.perform c = some t ∧ w' = w.after (c := c) (.ok a) t)
      (fun _ _ => True) ((askEngine c).withError f) w := by
  refine Attempt.ensures_withError.2 (Attempt.ensures_askEngine.2 ?_)
  rintro r _ ⟨effect, server, hturn, rfl⟩
  refine ⟨trivial, ?_⟩
  cases hturn with
  | done ht a ha => exact ⟨_, ht, by rw [hr]⟩
  | undone a ha => exact absurd ha (hc _ a)
  | doneFaulty _ e | undoneFaulty e => trivial

theorem ensures_delete {ε : Type} {f : Fault → ε} (name : String) :
    Attempt.Ensures turn (fun _ => True)
      (fun _ w' => w' = w.after (c := .deleteIndex name) (.ok ()) (w.server.set name none))
      (fun _ _ => True) ((askEngine (.deleteIndex name)).withError f) w := by
  refine (ensures_done (c := .deleteIndex name) (fun _ _ => Bool.false_ne_true)
    fun _ _ => rfl).mono ?_ fun _ _ h => h
  rintro - _ ⟨t, ⟨⟩, rfl⟩
  rfl

theorem ensures_create (name : String) :
    Attempt.Ensures turn (fun _ => True)
      (fun _ w' => w' = w.after (c := .createIndex name primaryKey) (.ok ())
        (w.server.set name (some (w.server.indexOr name primaryKey))))
      (fun _ _ => True) (ask (.createIndex name primaryKey)) w := by
  refine (ensures_done (c := .createIndex name primaryKey) (fun _ _ => Bool.false_ne_true)
    fun _ _ => rfl).mono ?_ fun _ _ h => h
  rintro - _ ⟨t, ⟨⟩, rfl⟩
  rfl

theorem ensures_configureTask (setting : IndexSetting) (hw : w.Prepared p i) :
    Attempt.Ensures turn (fun _ => True) (fun _ w' => w'.Prepared p (i.configure setting))
      (fun _ _ => True)
      (do await (← ask (.configure p.rebuildIndex setting)) taskTimeout) w := by
  refine (ensures_task (begins_configure _ _) _).mono ?_ fun _ _ h => h
  rintro - _ ⟨a, t, server, ⟨⟩, hserver, rfl⟩
  refine ⟨?_, hw.configured.after_task nofun⟩
  refine (congrFun hserver _).trans ((Server.indexes_set_self _).trans ?_)
  rw [Server.indexOr_eq hw.index]

/-- Settings are made one after the other. -/
theorem ensures_configureAll (settings : List IndexSetting) (hw : w.Prepared p i) :
    Attempt.Ensures turn (fun _ => True)
      (fun _ w' => w'.Prepared p (settings.foldl Index.configure i)) (fun _ _ => True)
      (configure p.rebuildIndex settings) w := by
  induction settings generalizing w i with
  | nil => exact hw
  | cons setting rest ih =>
    rw [configure, ← bind_assoc]
    exact Attempt.ensures_bind.2 ((ensures_configureTask setting hw).mono
      (fun _ _ hw' => ih hw') fun _ _ h => h)

theorem ensures_uploadTask (batch : List Payload) (hw : w.Prepared p i)
    (hi : i.settings = indexSettings) :
    Attempt.Ensures turn (fun _ => True) (fun _ w' => w'.Prepared p (i.upsert batch))
      (fun _ _ => True)
      (do await (← ask (.addDocuments p.rebuildIndex batch primaryKey)) none) w := by
  refine (ensures_task (begins_addDocuments _ _ _) _).mono ?_ fun _ _ h => h
  rintro - _ ⟨a, t, server, ⟨⟩, hserver, rfl⟩
  refine ⟨?_, hw.configured.after_task ?_⟩
  · refine (congrFun hserver _).trans ((Server.indexes_set_self _).trans ?_)
    rw [Server.indexOr_eq hw.index]
  · rintro _ _ _ ⟨⟩
    exact ⟨i, hw.index, hi⟩

/-- Batches are added one after the other. -/
theorem ensures_uploadAll (chunks : List (List Payload)) (hw : w.Prepared p i)
    (hi : i.settings = indexSettings) :
    Attempt.Ensures turn (fun _ => True)
      (fun _ w' => w'.Prepared p (chunks.foldl Index.upsert i)) (fun _ _ => True)
      (upload p.rebuildIndex chunks) w := by
  induction chunks generalizing w i with
  | nil => exact hw
  | cons chunk rest ih =>
    rw [upload, ← bind_assoc]
    exact Attempt.ensures_bind.2 ((ensures_uploadTask chunk hw hi).mono
      (fun _ _ hw' => ih hw' hi) fun _ _ h => h)

/-- Batches that are added one after the other leave the last payload of each document. -/
theorem foldl_upsert (settings : List IndexSetting) (payloads : List Payload)
    (chunks : List (List Payload)) :
    chunks.foldl Index.upsert ⟨primaryKey, settings, lastBy (·.find? primaryKey) payloads⟩ =
      ⟨primaryKey, settings, lastBy (·.find? primaryKey) (payloads ++ chunks.flatten)⟩ := by
  induction chunks generalizing payloads with
  | nil => rw [List.flatten_nil, List.append_nil]; rfl
  | cons chunk rest ih =>
    rw [List.flatten_cons, ← List.append_assoc, ← ih, lastBy_append]
    rfl

/-! ### The live index -/

/-- Finding or making the live index leaves the second one as it is. -/
theorem ensures_ensureLive (hw : w.Prepared p i) :
    Attempt.Ensures turn (fun _ => True) (fun _ w' => w'.Prepared p i) (fun _ _ => True)
      (ensureIndex p.liveIndex) w := by
  refine Attempt.ensures_bind.2 (Attempt.ensures_outcome.2 (Attempt.ensures_askEngine.2 ?_))
  rintro r _ ⟨effect, server, hturn, rfl⟩
  refine ⟨trivial, ?_⟩
  have hlooked : (w.after r server).Prepared p i :=
    ⟨(hturn.index_eq fun u hu => by cases hu; rfl).trans hw.index, hw.configured.after nofun⟩
  have hcreate : Attempt.Ensures turn (fun _ => True) (fun _ w' => w'.Prepared p i)
      (fun _ _ => True) (ask (.createIndex p.liveIndex primaryKey)) (w.after r server) := by
    refine (ensures_create p.liveIndex).mono ?_ fun _ _ h => h
    rintro - _ rfl
    exact ⟨(Server.indexes_set_of_ne _ p.rebuildIndex_ne).trans hlooked.index,
      hlooked.configured.after nofun⟩
  match r with
  | .ok () => exact hlooked
  | .error .cancelled => trivial
  | .error (.error message) => exact hcreate
  | .error (.refused message) => exact hcreate

theorem ensures_swapLive (hw : w.Prepared p i) :
    Attempt.Ensures turn (fun _ => True)
      (fun _ w' => w'.server.indexes p.liveIndex = some i ∧ w'.Configured) (fun _ _ => True)
      (do await (← ask (.swap [(p.liveIndex, p.rebuildIndex)])) taskTimeout) w := by
  refine (ensures_task (begins_swap _) _).mono ?_ fun _ _ h => h
  rintro - _ ⟨a, t, server, ht, hserver, rfl⟩
  refine ⟨(congrFun hserver _).trans ?_, hw.configured.after_task nofun⟩
  obtain ⟨_, j, -, hj, rfl⟩ := Server.perform_swap ht
  rw [Server.indexes_set_of_ne _ p.rebuildIndex_ne.symm, Server.indexes_set_self, ← hj, hw.index]

/-- The index that a publication makes, with all settings and the last payload of each document. -/
def Plan.published (p : Plan) : Index :=
  ⟨primaryKey, indexSettings, lastBy (·.find? primaryKey) p.payloads⟩

/-- The work on the second index makes it the live one. -/
theorem ensures_rebuildWhole (hb : 1 ≤ p.batchSize) (u : Server) :
    Attempt.Ensures turn (fun _ => True)
      (fun _ w => w.server.indexes p.liveIndex = some p.published ∧ w.Configured)
      (fun _ _ => True) (rebuild p) (.start u) := by
  have hsettings : indexSettings.foldl Index.configure ⟨primaryKey, [], []⟩ =
      ⟨primaryKey, indexSettings, lastBy (·.find? primaryKey) []⟩ := rfl
  refine Attempt.ensures_bind.2 ((ensures_delete _).mono ?_ fun _ _ h => h)
  rintro - _ rfl
  refine Attempt.ensures_bind.2 ((ensures_create _).mono ?_ fun _ _ h => h)
  rintro - w hw
  have hw : w.Prepared p ⟨primaryKey, [], []⟩ := by
    subst hw
    have hstart : (Chronicle.start u).Configured := fun _ hx => absurd hx List.not_mem_nil
    refine ⟨(Server.indexes_set_self _).trans ?_,
      (hstart.after (c := .deleteIndex _) nofun).after (c := .createIndex _ _) nofun⟩
    rw [Server.indexOr]
    exact congrArg (fun i : Option Index => some (i.getD _)) (Server.indexes_set_self none)
  refine Attempt.ensures_bind.2 ((ensures_configureAll _ hw).mono ?_ fun _ _ h => h)
  intro _ w₁ hw₁
  rw [hsettings] at hw₁
  rw [batches_eq_ok hb]
  refine Attempt.ensures_bind.2 ((ensures_uploadAll _ hw₁ rfl).mono ?_ fun _ _ h => h)
  intro _ w₂ hw₂
  rw [foldl_upsert, List.nil_append, flatten_slices (by omega)] at hw₂
  refine Attempt.ensures_bind.2 ((ensures_ensureLive hw₂).mono ?_ fun _ _ h => h)
  exact fun _ w₃ hw₃ => ensures_swapLive hw₃

/-- If a publication returns, the live index is the one that it makes. -/
theorem ensures_publishWhole (hb : 1 ≤ p.batchSize) (u : Server) :
    Attempt.Ensures turn (fun _ => True)
      (fun _ w => w.server.indexes p.liveIndex = some p.published ∧ w.Configured)
      (fun _ _ => True) (publish p) (.start u) := by
  refine Attempt.ensures_bind.2
    (Attempt.ensures_outcome.2 ((ensures_rebuildWhole hb u).mono ?_ fun _ _ _ => ?_))
  · rintro - w ⟨hlive, hconfigured⟩
    refine Attempt.ensures_bind.2 ((ensures_delete _).mono ?_ fun _ _ h => h)
    rintro - _ rfl
    exact ⟨(Server.indexes_set_of_ne _ p.rebuildIndex_ne.symm).trans hlive,
      hconfigured.after nofun⟩
  · exact Attempt.ensures_bind.2 (Attempt.ensures_true.mono (fun _ _ _ => trivial) fun _ _ h => h)

/-! ### Documents -/

theorem find?_primaryKey (d : Document) : d.payload.find? primaryKey = some (.str d.versionId) :=
  Document.find?_payload List.mem_cons_self

/-- Of each version the published index has the payload of its last document. -/
theorem mem_published {settings : Settings} {documents : List Document} {q : Payload} :
    q ∈ (planOf settings documents).published.documents ↔
      ∃ l₁ d l₂, documents = l₁ ++ d :: l₂ ∧ d.versionId ∉ l₂.map Document.versionId ∧
        q = d.payload := by
  have hkey (l : List Document) (d : Document) :
      d.payload.find? primaryKey ∈ (l.map Document.payload).map (·.find? primaryKey) ↔
        d.versionId ∈ l.map Document.versionId := by
    simp [find?_primaryKey]
  constructor
  · intro h
    obtain ⟨l₁, l₂, hl, hq⟩ := mem_lastBy.1 h
    obtain ⟨m₁, rest, rfl, rfl, hrest⟩ := List.map_eq_append_iff.1 hl
    obtain ⟨d, m₂, rfl, rfl, rfl⟩ := List.map_eq_cons_iff.1 hrest
    exact ⟨m₁, d, m₂, rfl, fun hd => hq ((hkey m₂ d).2 hd), rfl⟩
  · rintro ⟨l₁, d, l₂, rfl, hd, rfl⟩
    refine mem_lastBy.2 ⟨l₁.map Document.payload, l₂.map Document.payload, ?_, fun h => ?_⟩
    · exact List.map_append
    · exact hd ((hkey l₂ d).1 h)

/-- If nothing fails, a publication returns the number of documents. Then the live index has one
payload for each version, that of its last document, which has the id of the version under the
primary key, and all settings, which were made before the first document was added; there is no
second index, and the other indexes are as they were. -/
theorem publish_faultless {settings : Settings} {documents : List Document} {u : Server}
    {r : Except Failure Nat} (hsize : 1 ≤ settings.uploadBatchSize)
    (h : Dialogue.Reaches turn (publish (planOf settings documents)).run (.start u) (.done r) w)
    (hfaultless : ∀ x ∈ w.steps, x.fails = false) :
    r = .ok documents.length ∧
    (∃ i, w.server.indexes settings.indexName = some i ∧ i.settings = indexSettings ∧
      (i.documents.map (·.find? primaryKey)).Nodup ∧
      (∀ q, q ∈ i.documents ↔ ∃ l₁ d l₂, documents = l₁ ++ d :: l₂ ∧
        d.versionId ∉ l₂.map Document.versionId ∧ q = d.payload) ∧
      ∀ q ∈ i.documents, ∃ d ∈ documents, q = d.payload ∧
        q.find? primaryKey = some (.str d.versionId)) ∧
    w.Configured ∧
    w.server.indexes (settings.indexName ++ "_rebuild") = none ∧
    ∀ name, name ≠ settings.indexName → name ≠ settings.indexName ++ "_rebuild" →
      w.server.indexes name = u.indexes name := by
  have hfailing : w.failing? = none :=
    List.find?_eq_none.2 fun x hx => by simp [hfaultless x hx]
  obtain ⟨hends, hnone⟩ := ends_of_reaches h fun x hx _ => hfaultless x hx
  have hr : r = .ok (payloads documents).length :=
    hends.exits.1.2 ⟨hfailing, show settings.uploadBatchSize ≠ 0 by omega⟩
  subst hr
  obtain ⟨hlive, hconfigured⟩ :=
    Dialogue.Ensures.rest (ensures_publishWhole (p := planOf settings documents) hsize u) h
  refine ⟨by rw [payloads, List.length_map],
    ⟨_, hlive, rfl, nodup_map_lastBy _, fun q => mem_published, fun q hq => ?_⟩,
    hconfigured, hnone, fun name => index_of_reaches h⟩
  obtain ⟨l₁, d, l₂, rfl, -, rfl⟩ := mem_published.1 hq
  exact ⟨d, List.mem_append_right _ List.mem_cons_self, rfl, find?_primaryKey d⟩

/-- A document of a version, with a name. -/
def draft (versionId name : String) : Document :=
  { versionId, projectId := "1", name, summary := "", categories := [], displayCategories := [],
    follows := 0, downloads := 0, iconUrl := none, author := "bea", dateCreated := .epoch,
    createdTimestamp := 0, dateModified := .epoch, modifiedTimestamp := 0, license := "MIT",
    licenseUrl := none, openSource := true, slug := none, projectTypes := [], gallery := [],
    featuredGallery := none, color := none, loaderFields := .empty, monetizationStatus := none,
    teamId := "1", organizationId := none, threadId := "1", versions := [], datePublished := .epoch,
    dateQueued := none, status := "approved", requestedStatus := none, games := [],
    links := .empty, galleryItems := [], loaders := [] }

/-- Documents of which the first and the last, in different batches of two, are of one version. -/
def threeDocuments : List Document := [draft "2" "draft", draft "1" "lamp", draft "2" "final"]

/-- The documents are published over what was left, and no call fails. -/
def faultlessRun : Except Failure Nat × Chronicle :=
  faultyRun leftover (payloads threeDocuments) fun _ => none

theorem publish_faultless_leftover :
    (∀ x ∈ faultlessRun.2.steps, x.fails = false) ∧ faultlessRun.1 = .ok 3 ∧
      ∃ i, faultlessRun.2.server.indexes "projects" = some i ∧ i.settings = indexSettings ∧
        (i.documents.map (·.find? primaryKey)).Nodup ∧
        (draft "2" "final").payload ∈ i.documents ∧
        ∀ q ∈ i.documents, ∃ d ∈ threeDocuments, q = d.payload ∧
          q.find? primaryKey = some (.str d.versionId) := by
  have hreaches : Dialogue.Reaches turn
      (publish (planOf { Settings.default with uploadBatchSize := 2 } threeDocuments)).run
      (.start leftover) (.done faultlessRun.1) faultlessRun.2 := reaches_faultyRun _ _ _
  have hfaultless : ∀ x ∈ faultlessRun.2.steps, x.fails = false := by decide +kernel
  obtain ⟨hr, ⟨i, hi, hsettings, hnodup, hdocuments, hkey⟩, -⟩ :=
    publish_faultless (show (1 : Int) ≤ 2 by decide) hreaches hfaultless
  refine ⟨hfaultless, hr, i, hi, hsettings, hnodup, (hdocuments _).2 ?_, hkey⟩
  exact ⟨[draft "2" "draft", draft "1" "lamp"], _, [], rfl, List.not_mem_nil, rfl⟩

end CatalogSearch.Publication
