import CatalogSearch.Proofs.Loading.Concurrent
import CatalogSearch.Proofs.Service.Aborts

/-!
# Loads that the store fails

The first query of a load that the store does not answer ends it, however many batches it has
fetched, and it has then written nothing: what it has fetched is written when all batches are there
(`aborts_load`, `failsCleanly_of_loads`).
-/

namespace CatalogSearch

/-- The kind of records that a query is asked for, if it is not for the visible versions. -/
def Store.Query.recordName? : Store.Query → Option String
  | .visible => none
  | .versions _ | .loaders _ | .versionProjectTypes _ | .fieldValues _ => some "versions"
  | .projects _ | .categories _ | .versionIds _ | .gallery _ | .links _ | .projectTypes _
  | .games _ => some "projects"

theorem touches_of_writes {key : String} {r : Request} (h : r.Writes key) : r.Touches key := by
  cases r with
  | store q | engine call => exact h
  | cache c =>
    cases c with
    | write key' ttl text => exact h
    | read | connect | ping | close | info => exact h.elim

theorem spares_query (q : Store.Query) : (Request.store q).Spares := fun _ => id

theorem spares_read (keys : List String) : (Request.cache (.read keys)).Spares := fun _ => id

/-- A query is asked for the record under the key. The one for the visible versions is asked for all
records. -/
def Store.Query.Feeds (key : String) (q : Store.Query) : Prop :=
  ∀ name, q.recordName? = some name → ∃ id, key = name ++ ":" ++ Decimal.text id

/-- Nothing is written that a failed query would have fed. -/
def FailsCleanly (record : List Exchange) : Prop :=
  ∀ q f, ⟨.store q, .error f⟩ ∈ record → ∀ key, q.Feeds key → ∀ x ∈ record, ¬ x.1.Writes key

namespace Hydration

variable {α : Type} {p : Store.Query → Prop}

theorem aborts_ask_bind {q : Store.Query} {f : q.Answer → Attempt FetchError α} (hq : p q)
    (hf : ∀ x, Attempt.Aborts p (fun failure e => e = .store failure) (f x)) :
    Attempt.Aborts p (fun failure e => e = .store failure) (ask q >>= f) := by
  refine Attempt.Aborts.bind ?_ (asks_ask spares_query q) hf
  refine (Attempt.aborts_askStore hq).withError ⟨spares_query q, fun _ => trivial⟩ ?_
  rintro failure e rfl
  rfl

theorem aborts_versions (ids : List Int) :
    Attempt.Aborts (·.recordName? = some "versions") (fun failure e => e = .store failure)
      (versions ids) := by
  rw [versions]
  split
  · exact Attempt.aborts_pure
  refine aborts_ask_bind rfl fun rows => ?_
  split
  · exact Attempt.aborts_pure
  refine aborts_ask_bind rfl fun loaders => aborts_ask_bind rfl fun projectTypes =>
    aborts_ask_bind rfl fun values => ?_
  split
  · exact Attempt.aborts_pure
  · exact Attempt.aborts_throw

theorem aborts_projects (ids : List Int) :
    Attempt.Aborts (·.recordName? = some "projects") (fun failure e => e = .store failure)
      (projects ids) := by
  rw [projects]
  split
  · exact Attempt.aborts_pure
  refine aborts_ask_bind rfl fun rows => ?_
  split
  · exact Attempt.aborts_pure
  exact aborts_ask_bind rfl fun categories => aborts_ask_bind rfl fun versions =>
    aborts_ask_bind rfl fun gallery => aborts_ask_bind rfl fun links =>
    aborts_ask_bind rfl fun projectTypes => aborts_ask_bind rfl fun games => Attempt.aborts_pure

end Hydration

namespace Loading

variable {ρ : Type} {k : RecordKind ρ} {o : LoadOptions} {p : Store.Query → Prop}

theorem aborts_fetch (hspares : ∀ ids, Attempt.Asks Request.Spares (k.fetch ids))
    (hfetch : ∀ ids, Attempt.Aborts p (fun failure e => e = .store failure) (k.fetch ids))
    (ids : List Int) :
    Attempt.Aborts p (fun failure e => e = .store k.name failure) (fetch k o ids) := by
  have hbatches (chunks : List (List Int)) :
      Attempt.Asks Request.Spares (fetchBatches k chunks) ∧
        Attempt.Aborts p (fun failure e => e = .store failure) (fetchBatches k chunks) := by
    induction chunks with
    | nil => exact ⟨Attempt.asks_pure, Attempt.aborts_pure⟩
    | cons c rest ih =>
      exact ⟨(hspares c).bind fun rs => ih.1.bind fun l => Attempt.asks_pure,
        (hfetch c).bind (hspares c) fun rs => ih.2.bind ih.1 fun l => Attempt.aborts_pure⟩
  rw [fetch]
  split
  · exact Attempt.aborts_throw
  · refine ((hbatches _).2.withError (hbatches _).1 ?_).bind (hbatches _).1.withError
      fun l => Attempt.aborts_pure
    rintro failure e rfl
    rfl

/-- A failed query ends a load, which writes only after its last query. -/
theorem aborts_load (hspares : ∀ ids, Attempt.Asks Request.Spares (k.fetch ids))
    (hfetch : ∀ ids, Attempt.Aborts p (fun failure e => e = .store failure) (k.fetch ids))
    (o : LoadOptions) (ids : List Int) :
    Attempt.Aborts p (fun failure e => e = .store k.name failure) (load k o ids) := by
  rw [load]
  split
  · exact Attempt.aborts_pure
  refine (Attempt.aborts_of_asks (asks_readCache (fun _ _ => trivial) _)).bind
    (asks_readCache (fun _ _ => spares_read _) _) fun cached => ?_
  dsimp only
  split
  · exact Attempt.aborts_pure
  refine (aborts_fetch hspares hfetch _).bind (asks_fetch hspares _) fun fetched => ?_
  split
  · exact Attempt.aborts_of_asks ((asks_writeCache (fun _ _ => trivial) _).bind
      fun _ => Attempt.asks_pure)
  · exact Attempt.aborts_pure

theorem aborts_loadVersions (o : LoadOptions) (ids : List Int) :
    Attempt.Aborts (·.recordName? = some "versions") (fun failure e => e = .store "versions" failure)
      (load .versions o ids) :=
  aborts_load (k := .versions) (Hydration.asks_versions spares_query) Hydration.aborts_versions o ids

theorem aborts_loadProjects (o : LoadOptions) (ids : List Int) :
    Attempt.Aborts (·.recordName? = some "projects") (fun failure e => e = .store "projects" failure)
      (load .projects o ids) :=
  aborts_load (k := .projects) (Hydration.asks_projects spares_query) Hydration.aborts_projects o ids

/-! ### The record of a load -/

/-- The record of a load of a kind: it touches keys of the kind only, its queries are for such
records, it calls no search engine, and a failed query has cut it off. -/
structure LoadRecord (k : RecordKind ρ) (r : Except LoadError (OrderedMap Int ρ))
    (record : List Exchange) : Prop where
  owns : ∀ x ∈ record, k.Owns x.1
  queries : ∀ q x, ⟨.store q, x⟩ ∈ record → q.recordName? = some k.name
  silent : ∀ x ∈ record, ¬ x.1.IsCall
  ends : Answered record ∨ ∃ q f, r = .error (.store k.name f) ∧ CutOff q f record

theorem loadRecord_of_reaches {ids : List Int} {r : Except LoadError (OrderedMap Int ρ)}
    {record : List Exchange} (howns : Attempt.Asks k.Owns (load k o ids))
    (haborts : Attempt.Aborts (·.recordName? = some k.name)
      (fun failure e => e = .store k.name failure) (load k o ids))
    (hr : Dialogue.Reaches Dialogue.recorded (load k o ids).run [] (.done r) record) :
    LoadRecord k r record := by
  obtain ⟨l, hl, howned⟩ := (Dialogue.Asks.recorded howns []).rest hr
  obtain ⟨l', hl', haborted⟩ := (Dialogue.Aborts.recorded haborts []).rest hr
  cases hl
  cases hl'
  refine ⟨howned, haborted.queries, haborted.silent, haborted.ends.imp_right ?_⟩
  rintro ⟨q, f, ⟨_, rfl, rfl⟩, hcut⟩
  exact ⟨q, f, rfl, hcut⟩

theorem loadRecord_versions {ids : List Int} {r : Except LoadError (OrderedMap Int Version)}
    {record : List Exchange}
    (hr : Dialogue.Reaches Dialogue.recorded (load .versions o ids).run [] (.done r) record) :
    LoadRecord .versions r record :=
  loadRecord_of_reaches (asks_loadVersions o ids) (aborts_loadVersions o ids) hr

theorem loadRecord_projects {ids : List Int} {r : Except LoadError (OrderedMap Int Project)}
    {record : List Exchange}
    (hr : Dialogue.Reaches Dialogue.recorded (load .projects o ids).run [] (.done r) record) :
    LoadRecord .projects r record :=
  loadRecord_of_reaches (asks_loadProjects o ids) (aborts_loadProjects o ids) hr

namespace LoadRecord

variable {r : Except LoadError (OrderedMap Int ρ)} {record : List Exchange} {q : Store.Query}
  {f : Store.Failure}

/-- A failed query on the record is what the load fails with, and nothing is written. -/
theorem of_failed (h : LoadRecord k r record) (hf : ⟨.store q, .error f⟩ ∈ record) :
    r = .error (.store k.name f) ∧ ∀ x ∈ record, x.1.Spares := by
  rcases h.ends with hanswered | ⟨q', f', hr, hcut⟩
  · exact nomatch hanswered _ hf
  obtain ⟨before, rfl, hbefore⟩ := hcut.last
  rcases List.mem_append.1 hf with hf | hf
  · exact nomatch hbefore _ hf
  · cases List.mem_singleton.1 hf
    exact ⟨hr, hcut.spares⟩

/-- Neither load writes what a failed query of one of them would have fed. -/
theorem not_writes {ρ' : Type} {k' : RecordKind ρ'} {r' : Except LoadError (OrderedMap Int ρ')}
    {record' : List Exchange} (h : LoadRecord k r record) (h' : LoadRecord k' r' record')
    (hkeys : ∀ id id', k.cacheKey id ≠ k'.cacheKey id') (hf : ⟨.store q, .error f⟩ ∈ record)
    {key : String} (hkey : q.Feeds key) : ∀ x, x ∈ record ∨ x ∈ record' → ¬ x.1.Writes key := by
  rintro x (hx | hx) hwrites
  · exact (h.of_failed hf).2 x hx key hwrites
  · obtain ⟨id, rfl⟩ := hkey _ (h.queries q _ hf)
    obtain ⟨id', hid'⟩ := h'.owns x hx _ (touches_of_writes hwrites)
    exact hkeys id id' hid'

end LoadRecord

theorem failsCleanly_of_loads {versions : Except LoadError (OrderedMap Int Version)}
    {projects : Except LoadError (OrderedMap Int Project)} {l l' record : List Exchange}
    (hv : LoadRecord .versions versions l) (hp : LoadRecord .projects projects l')
    (hrecord : ∀ x, x ∈ record ↔ x ∈ l ∨ x ∈ l') : FailsCleanly record := by
  intro q f hf key hkey x hx
  rw [hrecord] at hf hx
  rcases hf with hf | hf
  · exact hv.not_writes hp RecordKind.cacheKey_ne hf hkey x hx
  · exact hp.not_writes hv (fun id id' h => RecordKind.cacheKey_ne id' id h.symm) hf hkey x hx.symm

end Loading

end CatalogSearch
