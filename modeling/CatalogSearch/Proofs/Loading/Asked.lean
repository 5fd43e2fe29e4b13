import CatalogSearch.Proofs.Loading.Batch
import CatalogSearch.Proofs.Service.Log

/-!
# What fetching asks the store

What fetching asks the store, and why it fails. Fetching a batch asks for the rows of its ids and,
if there are any, for what hangs on them; fetching all batches of a list asks for the rows of each
of its ids (`asksRows_fetch`). If the store answers, only an unknown field type makes it fail
(`errs_fetch`).
-/

namespace CatalogSearch

/-! ### What the store is asked -/

namespace Store

/-- The ids that a query is for. -/
def Query.ids : Query → List Int
  | .visible => []
  | .projects ids | .categories ids | .versionIds ids | .gallery ids | .links ids
  | .projectTypes ids | .games ids | .versions ids | .loaders ids | .versionProjectTypes ids
  | .fieldValues ids => ids

/-- The ids whose rows a query is for. The other queries are for what hangs on rows. -/
def Query.rowIds : Query → List Int
  | .projects ids | .versions ids => ids
  | _ => []

/-- The queries are for the rows of the ids, in this order, and for what hangs on some of them. -/
structure AsksRows (ids : List Int) (queries : List Query) : Prop where
  rows : queries.flatMap Query.rowIds = ids
  only : ∀ q ∈ queries, q.ids ≠ [] ∧ q.ids ⊆ ids

theorem asksRows_nil : AsksRows [] [] := ⟨rfl, fun _ hq => nomatch hq⟩

theorem AsksRows.append {ids ids' : List Int} {queries queries' : List Query}
    (h : AsksRows ids queries) (h' : AsksRows ids' queries') :
    AsksRows (ids ++ ids') (queries ++ queries') where
  rows := by rw [List.flatMap_append, h.rows, h'.rows]
  only := by
    refine List.forall_mem_append.2 ⟨fun q hq => ?_, fun q hq => ?_⟩
    · exact ⟨(h.only q hq).1, List.subset_append_of_subset_left _ (h.only q hq).2⟩
    · exact ⟨(h'.only q hq).1, List.subset_append_of_subset_right _ (h'.only q hq).2⟩

/-- Who asks for no ids asks nothing. -/
theorem AsksRows.eq_nil {queries : List Query} (h : AsksRows [] queries) : queries = [] :=
  List.eq_nil_iff_forall_not_mem.2 fun q hq => (h.only q hq).1 (List.subset_nil.1 (h.only q hq).2)

/-- One query for rows, and then some for what hangs on those that there are. -/
theorem asksRows_batch {ids found : List Int} {row : Query} {details : List Query} (hids : ids ≠ [])
    (hrow : row.ids = ids) (hrows : row.rowIds = ids) (hfound : found ≠ []) (hsub : found ⊆ ids)
    (hdetails : ∀ q ∈ details, q.ids = found ∧ q.rowIds = []) :
    AsksRows ids (row :: details) where
  rows := by
    rw [List.flatMap_cons, hrows, List.flatMap_eq_nil_iff.2 fun q hq => (hdetails q hq).2,
      List.append_nil]
  only := by
    refine List.forall_mem_cons.2 ⟨⟨hrow ▸ hids, hrow ▸ List.Subset.refl ids⟩, fun q hq => ?_⟩
    rw [(hdetails q hq).1]
    exact ⟨hfound, hsub⟩

theorem asksRows_single {ids : List Int} {row : Query} (hids : ids ≠ []) (hrow : row.ids = ids)
    (hrows : row.rowIds = ids) : AsksRows ids [row] where
  rows := by rw [List.flatMap_singleton, hrows]
  only := List.forall_mem_singleton.2 ⟨hrow ▸ hids, hrow ▸ List.Subset.refl ids⟩

variable (s : Store)

theorem queries_ask_bind {β : Type} (q : Query) (f : q.Answer → Attempt FetchError β) :
    Attempt.queries s (Hydration.ask q >>= f) = q :: Attempt.queries s (f (s.answer q)) := rfl

theorem asksRows_projects (ids : List Int) :
    AsksRows ids (Attempt.queries s (RecordKind.projects.fetch ids)) := by
  change AsksRows ids (Attempt.queries s (Hydration.projects ids))
  rw [Hydration.projects]
  split
  · next hids =>
    rw [List.isEmpty_iff.1 hids]
    exact asksRows_nil
  next hids =>
  rw [List.isEmpty_iff] at hids
  rw [queries_ask_bind]
  change AsksRows ids (_ :: Attempt.queries s (if (s.projectsOf ids).isEmpty then _ else _))
  split
  · exact asksRows_single hids rfl rfl
  next hrows =>
  let found := (s.projectsOf ids).map (·.id)
  have hsub : found ⊆ ids := by
    intro id hid
    obtain ⟨r, hr, rfl⟩ := List.mem_map.1 hid
    exact s.local_projectsOf.key_mem hr
  change AsksRows ids [.projects ids, .categories found, .versionIds found, .gallery found,
    .links found, .projectTypes found, .games found]
  refine asksRows_batch hids rfl rfl ?_ hsub (by simp [Query.ids, Query.rowIds])
  simpa [found] using hrows

theorem asksRows_versions (ids : List Int) :
    AsksRows ids (Attempt.queries s (RecordKind.versions.fetch ids)) := by
  change AsksRows ids (Attempt.queries s (Hydration.versions ids))
  rw [Hydration.versions]
  split
  · next hids =>
    rw [List.isEmpty_iff.1 hids]
    exact asksRows_nil
  next hids =>
  rw [List.isEmpty_iff] at hids
  rw [queries_ask_bind]
  change AsksRows ids (_ :: Attempt.queries s (if (s.versionsOf ids).isEmpty then _ else _))
  split
  · exact asksRows_single hids rfl rfl
  next hrows =>
  let found := (s.versionsOf ids).map (·.id)
  have hsub : found ⊆ ids := by
    intro id hid
    obtain ⟨r, hr, rfl⟩ := List.mem_map.1 hid
    exact s.local_versionsOf.key_mem hr
  refine asksRows_batch hids rfl rfl ?_ hsub ?_
  · simpa [found] using hrows
  · rw [queries_ask_bind, queries_ask_bind, queries_ask_bind]
    split <;> simp [Attempt.queries, Dialogue.queries, Query.ids, Query.rowIds, found, answer]

end Store

namespace Loading

variable {ρ : Type} {s : Store} {k : RecordKind ρ} {o : LoadOptions} {ids : List Int}

theorem asksRows_fetch
    (hasks : ∀ ids, Store.AsksRows ids (Attempt.queries s (k.fetch ids)))
    (hfetch : ∃ fetched, Attempt.Yields s (fetch k o ids) (.ok fetched)) :
    Store.AsksRows (slices o.batchSize.toNat ids).flatten (Attempt.queries s (fetch k o ids)) := by
  have hbatches {chunks : List (List Int)} {l : List (Int × ρ)}
      (hl : Attempt.Yields s (fetchBatches k chunks) (.ok l)) :
      Store.AsksRows chunks.flatten (Attempt.queries s (fetchBatches k chunks)) := by
    induction chunks generalizing l with
    | nil => exact Store.asksRows_nil
    | cons c rest ih =>
      obtain ⟨rs, hrs, hl⟩ := Attempt.yields_bind.1 hl
      obtain ⟨l', hl', -⟩ := Attempt.yields_bind.1 hl
      rw [fetchBatches, Attempt.queries_bind hrs, Attempt.queries_bind hl', Attempt.queries_pure,
        List.append_nil]
      exact (hasks c).append (ih hl')
  obtain ⟨fetched, hfetched⟩ := hfetch
  rw [fetch] at hfetched ⊢
  split at hfetched
  · exact absurd hfetched Attempt.not_yields_throw
  next chunks hchunks =>
  obtain ⟨l, hl, -⟩ := Attempt.yields_bind.1 hfetched
  have hbatched := Attempt.yields_withError_ok.1 hl
  obtain rfl : slices o.batchSize.toNat ids = chunks := by
    rw [batches] at hchunks
    split at hchunks
    · cases hchunks
    · exact Except.ok.inj hchunks
  rw [Attempt.queries_bind hl, Attempt.queries_pure, List.append_nil,
    Attempt.queries_withError hbatched]
  exact hbatches hbatched

/-! ### Why fetching fails -/

/-- Fetching a kind of records fails only because of field types, if the store answers. -/
def OnlyFieldTypes (s : Store) (k : RecordKind ρ) : Prop :=
  ∀ ids, Attempt.Errs s (fun e => ∃ cause, e = .fieldType cause) (k.fetch ids)

theorem onlyFieldTypes_ask_bind {β : Type} {q : Store.Query} {f : q.Answer → Attempt FetchError β}
    (hf : ∀ x, Attempt.Errs s (fun e => ∃ cause, e = .fieldType cause) (f x)) :
    Attempt.Errs s (fun e => ∃ cause, e = .fieldType cause) (Hydration.ask q >>= f) :=
  (Attempt.errs_askStore.withError fun _ => False.elim).bind hf

theorem onlyFieldTypes_projects (s : Store) : OnlyFieldTypes s .projects := by
  intro ids
  change Attempt.Errs s _ (Hydration.projects ids)
  rw [Hydration.projects]
  split
  · exact Attempt.errs_pure
  refine onlyFieldTypes_ask_bind fun rows => ?_
  split
  · exact Attempt.errs_pure
  exact onlyFieldTypes_ask_bind fun categories => onlyFieldTypes_ask_bind fun versions =>
    onlyFieldTypes_ask_bind fun gallery => onlyFieldTypes_ask_bind fun links =>
    onlyFieldTypes_ask_bind fun projectTypes => onlyFieldTypes_ask_bind fun games =>
    Attempt.errs_pure

theorem onlyFieldTypes_versions (s : Store) : OnlyFieldTypes s .versions := by
  intro ids
  change Attempt.Errs s _ (Hydration.versions ids)
  rw [Hydration.versions]
  split
  · exact Attempt.errs_pure
  refine onlyFieldTypes_ask_bind fun rows => ?_
  split
  · exact Attempt.errs_pure
  refine onlyFieldTypes_ask_bind fun loaders => onlyFieldTypes_ask_bind fun projectTypes =>
    onlyFieldTypes_ask_bind fun values => ?_
  split
  · exact Attempt.errs_pure
  · exact Attempt.errs_throw ⟨_, rfl⟩

theorem errs_fetch (h : OnlyFieldTypes s k) (ho : 1 ≤ o.batchSize) (ids : List Int) :
    Attempt.Errs s (fun e => ∃ cause, e = .fieldType cause) (fetch k o ids) := by
  have hbatches (chunks : List (List Int)) :
      Attempt.Errs s (fun e => ∃ cause, e = .fieldType cause) (fetchBatches k chunks) := by
    induction chunks with
    | nil => exact Attempt.errs_pure
    | cons c rest ih => exact (h c).bind fun rs => ih.bind fun l => Attempt.errs_pure
  rw [fetch, batches_eq_ok ho]
  refine ((hbatches _).withError ?_).bind fun l => Attempt.errs_pure
  rintro e ⟨cause, rfl⟩
  exact ⟨cause, rfl⟩

end Loading

end CatalogSearch
