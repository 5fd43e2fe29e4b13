import CatalogSearch.Proofs.Data.Batches
import CatalogSearch.Proofs.Loading.Concurrent
import CatalogSearch.Proofs.Service.Exchanges

/-!
# Fetching by its exchanges

Fetching by the record of its exchanges. Records that are fetched in batches have been asked for
batch by batch, and each batch was answered (`ensures_loadRecorded`).
-/

namespace CatalogSearch

/-- The ids whose rows the exchange is about, if it is an answered query for rows. -/
def Exchange.rows? : Exchange → Option (List Int)
  | ⟨.store (.projects ids), .ok _⟩ => some ids
  | ⟨.store (.versions ids), .ok _⟩ => some ids
  | _ => none

/-- Whether the request is a query for rows. -/
def Request.asksRows : Request → Bool
  | .store (.projects _) => true
  | .store (.versions _) => true
  | _ => false

variable {ε α ρ : Type} {record : List Exchange} {k : RecordKind ρ} {o : LoadOptions}

theorem Exchange.rows?_eq_none {r : Request} (h : r.asksRows = false) (x : r.Reply) :
    Exchange.rows? ⟨r, x⟩ = none := by
  cases r with
  | store q =>
    cases q with
    | projects | versions => cases h
    | _ => rfl
  | cache | engine => rfl

/-- The batches whose rows have been asked for. -/
def askedBatches (record : List Exchange) : List (List Int) := record.filterMap Exchange.rows?

theorem askedBatches_concat {r : Request} (hr : r.asksRows = false) (x : r.Reply)
    (record : List Exchange) : askedBatches (record ++ [⟨r, x⟩]) = askedBatches record := by
  rw [askedBatches, List.filterMap_append, List.filterMap_cons_none (Exchange.rows?_eq_none hr x),
    List.filterMap_nil, List.append_nil]
  rfl

theorem ensures_askedSame {a : Attempt ε α} (ha : Attempt.Asks (·.asksRows = false) a)
    (record : List Exchange) :
    Attempt.Ensures Dialogue.recorded (fun _ => True)
      (fun _ record' => askedBatches record' = askedBatches record)
      (fun _ record' => askedBatches record' = askedBatches record) a record := by
  refine ha.ensures (J := fun t => askedBatches t = askedBatches record) ?_ (fun _ _ => trivial) rfl
  rintro r t x _ hr ht rfl
  exact (askedBatches_concat hr x t).trans ht

/-- A batch that is not empty has its rows asked for, once. -/
def RecordKind.AsksBatch (k : RecordKind ρ) : Prop :=
  ∀ (ids : List Int) (record : List Exchange), ids ≠ [] →
    Attempt.Ensures Dialogue.recorded (fun _ => True)
      (fun _ record' => askedBatches record' = askedBatches record ++ [ids]) (fun _ _ => True)
      (k.fetch ids) record

namespace Hydration

/-- One query for the rows of a batch, and none for other rows after it. -/
theorem ensures_askRows {q : Store.Query} {ids : List Int} {f : q.Answer → Attempt FetchError α}
    (hq : ∀ rows, Exchange.rows? ⟨.store q, .ok rows⟩ = some ids)
    (hf : ∀ rows, Attempt.Asks (·.asksRows = false) (f rows)) :
    Attempt.Ensures Dialogue.recorded (fun _ => True)
      (fun _ record' => askedBatches record' = askedBatches record ++ [ids]) (fun _ _ => True)
      (ask q >>= f) record := by
  refine Attempt.ensures_bind.2 (Attempt.ensures_withError.2 (Attempt.ensures_askStore.2 ?_))
  rintro (_ | rows) _ rfl
  · exact ⟨trivial, trivial⟩
  refine ⟨trivial, (ensures_askedSame (hf rows) _).mono ?_ fun _ _ _ => trivial⟩
  intro _ record' h
  rw [h, askedBatches, List.filterMap_append, List.filterMap_cons_some (hq rows),
    List.filterMap_nil]
  rfl

theorem asks_part {q : Store.Query} (hq : (Request.store q).asksRows = false) :
    Attempt.Asks (·.asksRows = false) (ask q) :=
  Attempt.Asks.withError ⟨hq, fun _ => trivial⟩

theorem asksBatch_projects : RecordKind.projects.AsksBatch := by
  intro ids record hids
  change Attempt.Ensures _ _ _ _ (projects ids) record
  rw [projects, if_neg (by simpa using hids)]
  refine ensures_askRows (fun _ => rfl) fun rows => ?_
  split
  · exact Attempt.asks_pure
  exact (asks_part rfl).bind fun categories => (asks_part rfl).bind fun versions =>
    (asks_part rfl).bind fun gallery => (asks_part rfl).bind fun links =>
    (asks_part rfl).bind fun projectTypes => (asks_part rfl).bind fun games =>
    Attempt.asks_pure

theorem asksBatch_versions : RecordKind.versions.AsksBatch := by
  intro ids record hids
  change Attempt.Ensures _ _ _ _ (versions ids) record
  rw [versions, if_neg (by simpa using hids)]
  refine ensures_askRows (fun _ => rfl) fun rows => ?_
  split
  · exact Attempt.asks_pure
  refine (asks_part rfl).bind fun loaders => (asks_part rfl).bind fun projectTypes =>
    (asks_part rfl).bind fun values => ?_
  split
  · exact Attempt.asks_pure
  · exact Attempt.asks_throw

end Hydration

namespace Loading

theorem ensures_fetchBatchesAsked (hk : k.AsksBatch) {chunks : List (List Int)}
    (hchunks : ∀ c ∈ chunks, c ≠ []) (record : List Exchange) :
    Attempt.Ensures Dialogue.recorded (fun _ => True)
      (fun _ record' => askedBatches record' = askedBatches record ++ chunks) (fun _ _ => True)
      (fetchBatches k chunks) record := by
  induction chunks generalizing record with
  | nil => exact (List.append_nil _).symm
  | cons c rest ih =>
    obtain ⟨hc, hrest⟩ := List.forall_mem_cons.1 hchunks
    refine Attempt.ensures_bind.2 ((hk c record hc).mono ?_ fun _ _ h => h)
    intro _ record₁ h₁
    refine Attempt.ensures_bind.2 ((ih hrest record₁).mono ?_ fun _ _ h => h)
    intro _ record₂ h₂
    show askedBatches record₂ = _
    rw [h₂, h₁, List.append_assoc]
    rfl

/-- Records that are fetched have been asked for in the batches of their ids. -/
theorem ensures_fetchAsked (hk : k.AsksBatch) (o : LoadOptions) (ids : List Int)
    (record : List Exchange) :
    Attempt.Ensures Dialogue.recorded (fun _ => True)
      (fun _ record' => ∃ chunks, Batched o.batchSize ids chunks ∧
        askedBatches record' = askedBatches record ++ chunks) (fun _ _ => True)
      (fetch k o ids) record := by
  rw [fetch]
  split
  · trivial
  next chunks hchunks =>
  have hasked := ensures_fetchBatchesAsked hk (batched_of_batches hchunks).ne_nil record
  refine Attempt.ensures_bind.2 (Attempt.ensures_withError.2 (hasked.mono ?_ fun _ _ h => h))
  exact fun _ _ h => ⟨chunks, batched_of_batches hchunks, h⟩

end Loading

/-! ### Loads -/

/-- The cache gave a valid record of the id. -/
def RecordKind.HeldIn (k : RecordKind ρ) (record : List Exchange) (id : Int) : Prop :=
  ∃ (ids : List Int) (texts : List (Option String)),
    ⟨.cache (.read (ids.map k.cacheKey)), .ok texts⟩ ∈ record ∧
      (Loading.validRecords k ids texts).contains id = true

/-- The store was asked for the rows of all ids but those whose records the cache gave, in batches
of the size. -/
structure RecordKind.AsksMissing (k : RecordKind ρ) (size : Int) (ids missing : List Int)
    (record : List Exchange) (asked : List (List Int)) : Prop where
  nodup : missing.Nodup
  subset : missing ⊆ ids
  held : ∀ id ∈ ids, id ∉ missing → k.HeldIn record id
  batched : missing = [] ∧ asked = [] ∨ Batched size missing asked

theorem RecordKind.AsksMissing.extend {size : Int} {ids missing : List Int}
    {record record' : List Exchange} {asked : List (List Int)}
    (h : k.AsksMissing size ids missing record asked) (hrecord : record ⊆ record') :
    k.AsksMissing size ids missing record' asked where
  nodup := h.nodup
  subset := h.subset
  held id hid hnot := by
    obtain ⟨ids', texts, hread, hvalid⟩ := h.held id hid hnot
    exact ⟨ids', texts, hrecord hread, hvalid⟩
  batched := h.batched

namespace Loading

/-- What a load finds in the cache, the cache has given it. -/
theorem ensures_readCacheHeld (o : LoadOptions) (ids : List Int) (record : List Exchange) :
    Attempt.Ensures Dialogue.recorded (fun _ => True)
      (fun cached record' => askedBatches record' = askedBatches record ∧
        ∀ id, cached.contains id = true → k.HeldIn record' id) (fun _ _ => True)
      (readCache k o ids) record := by
  rw [readCache]
  split
  · refine Attempt.ensures_bind.2 (Attempt.ensures_outcome.2 (Attempt.ensures_askCache.2 ?_))
    rintro x _ rfl
    refine ⟨trivial, ?_⟩
    have hsame := askedBatches_concat (r := .cache (.read (ids.map k.cacheKey))) rfl x record
    cases x with
    | ok texts =>
      exact ⟨hsame, fun _ hid => ⟨ids, texts, List.mem_append_right _ List.mem_cons_self, hid⟩⟩
    | error failure =>
      cases failure with
      | unreachable message => exact ⟨hsame, fun _ hid => absurd hid Bool.false_ne_true⟩
      | broken failure => trivial
  · exact ⟨rfl, fun _ hid => absurd hid Bool.false_ne_true⟩

/-- Writing what was fetched asks for no rows. -/
theorem ensures_fetchWritten (hk : k.AsksBatch) (o : LoadOptions) (ids : List Int)
    (cached : OrderedMap Int ρ) (record : List Exchange) :
    Attempt.Ensures Dialogue.recorded (fun _ => True)
      (fun _ record' => ∃ chunks, Batched o.batchSize ids chunks ∧
        askedBatches record' = askedBatches record ++ chunks) (fun _ _ => True)
      (do
        let fetched ← fetch k o ids
        if o.cached then writeCache k o.expiry fetched.entries
        return cached.insertAll fetched.entries) record := by
  refine Attempt.ensures_bind.2 ((ensures_fetchAsked hk o ids record).mono ?_ fun _ _ h => h)
  rintro fetched record₁ ⟨chunks, hchunks, hasked⟩
  have hwritten : Attempt.Asks (·.asksRows = false) (do
      if o.cached then writeCache k o.expiry fetched.entries
      return cached.insertAll fetched.entries) := by
    split
    · exact (asks_writeCache (fun _ _ => rfl) _).bind fun _ => Attempt.asks_pure
    · exact Attempt.asks_pure
  refine (ensures_askedSame hwritten record₁).mono ?_ fun _ _ _ => trivial
  exact fun _ record' h => ⟨chunks, hchunks, h.trans hasked⟩

/-- What a load has done to the record when it returns: the rows of the missing ids have been asked
for in batches. -/
def LoadsRecorded (k : RecordKind ρ) (o : LoadOptions) (ids : List Int)
    (record record' : List Exchange) : Prop :=
  ∃ missing asked, askedBatches record' = askedBatches record ++ asked ∧
    k.AsksMissing o.batchSize ids missing record' asked

theorem ensures_loadDistinctRecorded (hk : k.AsksBatch) (o : LoadOptions) {ids : List Int}
    (hids : ids.Nodup) (record : List Exchange) :
    Attempt.Ensures Dialogue.recorded (fun _ => True)
      (fun _ record' => LoadsRecorded k o ids record record') (fun _ _ => True)
      (loadDistinct k o ids) record := by
  refine Attempt.ensures_bind.2 ((ensures_readCacheHeld o ids record).mono ?_ fun _ _ h => h)
  rintro cached record₁ ⟨hsame, hheld⟩
  have hasks {asked : List (List Int)}
      (h : ids.filter (fun id => !cached.contains id) = [] ∧ asked = [] ∨
        Batched o.batchSize (ids.filter fun id => !cached.contains id) asked) :
      k.AsksMissing o.batchSize ids (ids.filter fun id => !cached.contains id) record₁ asked := by
    refine ⟨hids.filter _, List.filter_subset_self _, fun id hid hnot => hheld id ?_, h⟩
    by_contra hcached
    exact hnot (List.mem_filter.2 ⟨hid, by rwa [Bool.not_eq_true', ← Bool.not_eq_true]⟩)
  dsimp only
  split
  · next hmissing =>
    exact ⟨_, [], by rw [hsame, List.append_nil], hasks (.inl ⟨List.isEmpty_iff.1 hmissing, rfl⟩)⟩
  · refine ((ensures_fetchWritten hk o _ cached record₁).and
      (Attempt.ensures_extended _ _)).mono ?_ fun _ _ _ => trivial
    rintro - record' ⟨⟨chunks, hchunks, hasked⟩, hrecord⟩
    exact ⟨_, chunks, hsame ▸ hasked, (hasks (.inr hchunks)).extend hrecord⟩

/-- A load that returns has asked the store for the rows of all ids but those whose records the
cache gave. -/
theorem ensures_loadRecorded (hk : k.AsksBatch) (o : LoadOptions) (ids : List Int)
    (record : List Exchange) :
    Attempt.Ensures Dialogue.recorded (fun _ => True)
      (fun _ record' => LoadsRecorded k o ids record record') (fun _ _ => True)
      (load k o ids) record := by
  rw [load]
  split
  · next hids =>
    refine ⟨[], [], (List.append_nil _).symm, List.nodup_nil, List.nil_subset _, fun id hid _ => ?_,
      .inl ⟨rfl, rfl⟩⟩
    exact absurd (hids ▸ (mem_distinct id ids).2 hid) List.not_mem_nil
  · next id rest hids =>
    refine (ensures_loadDistinctRecorded hk o (hids ▸ nodup_distinct ids) record).mono ?_
      fun _ _ h => h
    rintro - record' ⟨missing, asked, hasked, h⟩
    refine ⟨missing, asked, hasked, h.nodup, fun id hid => ?_, fun id hid => ?_, h.batched⟩
    · exact (mem_distinct id ids).1 (hids ▸ h.subset hid)
    · exact h.held id (hids ▸ (mem_distinct id ids).2 hid)

end Loading

end CatalogSearch
