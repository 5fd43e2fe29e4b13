import CatalogSearch.Proofs.Loading.Asked
import CatalogSearch.Proofs.Loading.Concurrent
import CatalogSearch.Proofs.Loading.OneByOne
import CatalogSearch.Proofs.Loading.Steady

/-!
# What a load resolves

What a load does, exactly (`load_resolves`). Each id is resolved from the cache if this has a valid
text for it that can be read, and else from the store; the store is asked for the ids that the cache
leaves missing and for nothing else, and what it has is written to the cache.
-/

namespace CatalogSearch

open Cache

/-! ### The steps of a load -/

/-- The queries on a log. -/
def queriesOf (log : List Request) : List Store.Query :=
  log.filterMap fun
    | .store q => some q
    | _ => none

theorem queriesOf_append (log log' : List Request) :
    queriesOf (log ++ log') = queriesOf log ++ queriesOf log' := List.filterMap_append

theorem queriesOf_concat_cache (log : List Request) (c : Command) :
    queriesOf (log ++ [.cache c]) = queriesOf log := by
  rw [queriesOf_append]
  exact List.append_nil _

theorem queriesOf_append_store (log : List Request) (queries : List Store.Query) :
    queriesOf (log ++ queries.map .store) = queriesOf log ++ queries := by
  rw [queriesOf_append, queriesOf, queriesOf, List.filterMap_map]
  exact congrArg _ List.filterMap_some

/-- The texts of a cache. -/
def Cache.Entries.texts (m : Entries) : Contents := fun key => (m key).map (·.text)

namespace Loading

variable {ρ : Type} {s : Store} {fate : Command → Fate} {k : RecordKind ρ}
  {records : List Int → List ρ} {fit : Int → Prop} {o : LoadOptions} {ids : List Int}
  {m : Entries} {log : List Request}

/-- What a load sees of the cache: nothing if it has none or cannot read it. -/
def seen (k : RecordKind ρ) (o : LoadOptions) (fate : Command → Fate) (ids : List Int)
    (m : Entries) : Contents :=
  match o.cached, fate (.read (ids.map k.cacheKey)) with
  | true, .answered => m.texts
  | _, _ => Contents.empty

/-- The ids for which there is no valid text. -/
def missing (k : RecordKind ρ) (c : Contents) (ids : List Int) : List Int :=
  ids.filter fun id => (c.record? k id).isNone

theorem mem_missing {c : Contents} {id : Int} :
    id ∈ missing k c ids ↔ id ∈ ids ∧ c.record? k id = none := by
  rw [missing, List.mem_filter, Option.isNone_iff_eq_none]

/-- Entries are written: where something changes, one of them is there, and if the cache accepts
them all, they are all there, each under the key of its id. -/
structure Written (k : RecordKind ρ) (expiry : Int) (fate : Command → Fate)
    (entries : List (Int × ρ)) (m m' : Entries) : Prop where
  changed : ∀ key, m' key ≠ m key →
    ∃ e ∈ entries, key = k.cacheKey e.1 ∧ m' key = some ⟨expiry, k.text e.2⟩
  accepted : (∀ e ∈ entries, fate (.write (k.cacheKey e.1) expiry (k.text e.2)) = .answered) →
    ∀ e ∈ entries, m' (k.cacheKey e.1) = some ⟨expiry, k.text e.2⟩

theorem run_askCache (c : Command) :
    (askCache c).run.run (Dialogue.logging (s.sharedWorld fate)) (m, log) =
      ((s.sharedWorld fate (.cache c) m).1,
        ((s.sharedWorld fate (.cache c) m).2, log ++ [.cache c])) := rfl

theorem run_readCache (s : Store) (fate : Command → Fate) (k : RecordKind ρ) (o : LoadOptions)
    (ids : List Int) (m : Entries) (log : List Request) :
    ∃ cached log', (readCache k o ids).run.run (Dialogue.logging (s.sharedWorld fate)) (m, log) =
        (.ok cached, (m, log')) ∧
      (∀ id, cached.find? id = if id ∈ ids then (seen k o fate ids m).record? k id else none) ∧
      queriesOf log' = queriesOf log := by
  rw [readCache, seen]
  cases hc : o.cached with
  | false => exact ⟨∅, log, rfl, fun id => (ite_self none).symm, rfl⟩
  | true =>
    rw [if_pos rfl, run_outcome_bind, run_askCache]
    cases hf : fate (.read (ids.map k.cacheKey)) with
    | answered =>
      have hreply : s.sharedWorld fate (.cache (.read (ids.map k.cacheKey))) m =
          (.ok ((ids.map k.cacheKey).map m.texts), m) := by
        rw [Store.sharedWorld, hf]
        rfl
      rw [hreply]
      exact ⟨_, _, rfl, find?_validRecords m.texts k ids, queriesOf_concat_cache log _⟩
    | failed message effective =>
      have hreply : s.sharedWorld fate (.cache (.read (ids.map k.cacheKey))) m =
          (.error (.unreachable message), m) := by
        rw [Store.sharedWorld, hf]
        exact congrArg (Prod.mk _) (ite_self m)
      rw [hreply]
      exact ⟨_, _, rfl, fun id => (ite_self none).symm, queriesOf_concat_cache log _⟩

theorem run_writeCache (s : Store) (fate : Command → Fate) (k : RecordKind ρ) (expiry : Int)
    {entries : List (Int × ρ)} (hdistinct : (entries.map Prod.fst).Nodup) (m : Entries)
    (log : List Request) :
    ∃ m' log', (writeCache k expiry entries).run.run
        (Dialogue.logging (s.sharedWorld fate)) (m, log) = (.ok (), (m', log')) ∧
      queriesOf log' = queriesOf log ∧ Written k expiry fate entries m m' := by
  induction entries generalizing m log with
  | nil => exact ⟨m, log, rfl, rfl, fun key h => absurd rfl h, fun _ e he => nomatch he⟩
  | cons e rest ih =>
    obtain ⟨he, hrest⟩ := List.nodup_cons.1 hdistinct
    let entry : Entry := ⟨expiry, k.text e.2⟩
    let written : Entries := Function.update m (k.cacheKey e.1) (some entry)
    have hwritten (key : String) (h : written key ≠ m key) :
        key = k.cacheKey e.1 ∧ written key = some entry := by
      by_cases hkey : key = k.cacheKey e.1
      · exact ⟨hkey, hkey ▸ Function.update_self ..⟩
      · exact absurd (Function.update_of_ne hkey ..) h
    rw [writeCache, run_outcome_bind, run_askCache]
    cases hf : fate (.write (k.cacheKey e.1) expiry (k.text e.2)) with
    | answered =>
      have hreply : s.sharedWorld fate (.cache (.write (k.cacheKey e.1) expiry (k.text e.2))) m =
          (.ok (), written) := by
        rw [Store.sharedWorld, hf]
        rfl
      rw [hreply]
      obtain ⟨m', log', hrun, hlog, hchanged, haccepted⟩ := ih hrest written
        (log ++ [.cache (.write (k.cacheKey e.1) expiry (k.text e.2))])
      refine ⟨m', log', hrun, hlog.trans (queriesOf_concat_cache log _), ?_, ?_⟩
      · intro key hkey
        by_cases hafter : m' key = written key
        · rw [hafter] at hkey ⊢
          exact ⟨e, List.mem_cons_self, hwritten key hkey⟩
        · obtain ⟨e', he', hentry⟩ := hchanged key hafter
          exact ⟨e', List.mem_cons_of_mem e he', hentry⟩
      · intro hall e' he'
        rcases List.mem_cons.1 he' with rfl | he'
        · by_contra hne
          have hafter : m' (k.cacheKey e'.1) ≠ written (k.cacheKey e'.1) := by
            intro h
            exact hne (h.trans (Function.update_self ..))
          obtain ⟨e'', he'', hkey, -⟩ := hchanged _ hafter
          exact he (List.mem_map.2 ⟨e'', he'', (RecordKind.cacheKey_inj hkey).symm⟩)
        · exact haccepted (fun x hx => hall x (List.mem_cons_of_mem e hx)) e' he'
    | failed message effective =>
      have hreply : s.sharedWorld fate (.cache (.write (k.cacheKey e.1) expiry (k.text e.2))) m =
          (.error (.unreachable message), if effective then written else m) := by
        rw [Store.sharedWorld, hf]
        rfl
      rw [hreply]
      refine ⟨_, _, rfl, queriesOf_concat_cache log _, ?_, ?_⟩
      · intro key hkey
        cases effective with
        | true => exact ⟨e, List.mem_cons_self, hwritten key hkey⟩
        | false => exact absurd rfl hkey
      · intro hall
        cases hf.symm.trans (hall e List.mem_cons_self)

/-! ### A load -/

/-- What comes of a load of ids for which the cache has certain texts and the store certain records:
under each id the record of its valid text or else that of the store, queries for the rows of the
ids without a valid text, and a cache in which nothing changes but that these records are written. -/
structure Resolved (k : RecordKind ρ) (o : LoadOptions) (fate : Command → Fate) (c : Contents)
    (stored : Int → Option ρ) (ids : List Int) (m : Entries) (found : OrderedMap Int ρ)
    (m' : Entries) (queries : List Store.Query) : Prop where
  find?_eq : ∀ id, found.find? id = if id ∈ ids then (c.record? k id).or (stored id) else none
  asks : Store.AsksRows (slices o.batchSize.toNat (missing k c ids)).flatten queries
  changed : ∀ key, m' key ≠ m key → o.cached = true ∧
    ∃ id ∈ missing k c ids, ∃ r, stored id = some r ∧
      key = k.cacheKey id ∧ m' key = some ⟨o.expiry, k.text r⟩
  accepted : o.cached = true →
    (∀ id ∈ missing k c ids, ∀ r, stored id = some r →
      fate (.write (k.cacheKey id) o.expiry (k.text r)) = .answered) →
    ∀ id ∈ missing k c ids, ∀ r, stored id = some r →
      m' (k.cacheKey id) = some ⟨o.expiry, k.text r⟩

/-- What is fetched is put over what the cache has, which has nothing there. -/
theorem or_of_missing {c : Contents} {id : Int} (st : Option ρ) :
    (if id ∈ missing k c ids then st else none).or (if id ∈ ids then c.record? k id else none) =
      if id ∈ ids then (c.record? k id).or st else none := by
  by_cases hid : id ∈ ids
  · cases hrecord : c.record? k id <;> simp [mem_missing, hid, hrecord]
  · simp [mem_missing, hid]

/-- If nothing is missing, nothing else happens. -/
theorem resolved_of_full {c : Contents} {found : OrderedMap Int ρ} {stored : Int → Option ρ}
    (hmissing : missing k c ids = [])
    (hfound : ∀ id, found.find? id = if id ∈ ids then c.record? k id else none) :
    Resolved k o fate c stored ids m found m [] where
  find?_eq id := by
    rw [hfound, ← or_of_missing (stored id), hmissing, if_neg List.not_mem_nil, Option.none_or]
  asks := by
    rw [hmissing, slices, if_neg (by simp)]
    exact Store.asksRows_nil
  changed key hkey := absurd rfl hkey
  accepted _ _ id hid := by
    rw [hmissing] at hid
    cases hid

/-- What is fetched is written, if there is a cache. -/
theorem run_writeBack {c : Contents} {stored : Int → Option ρ} {cached fetched : OrderedMap Int ρ}
    {queries : List Store.Query} (hlog : queriesOf log = queries)
    (hcached : ∀ id, cached.find? id = if id ∈ ids then c.record? k id else none)
    (hfetched : ∀ id, fetched.find? id = if id ∈ missing k c ids then stored id else none)
    (hasked : Store.AsksRows (slices o.batchSize.toNat (missing k c ids)).flatten queries) :
    ∃ m' log', (do
        if o.cached then writeCache k o.expiry fetched.entries
        return cached.insertAll fetched.entries : Attempt LoadError (OrderedMap Int ρ)).run.run
          (Dialogue.logging (s.sharedWorld fate)) (m, log) =
            (.ok (cached.insertAll fetched.entries), (m', log')) ∧
      Resolved k o fate c stored ids m (cached.insertAll fetched.entries) m' (queriesOf log') := by
  have hfound (id : Int) : (cached.insertAll fetched.entries).find? id =
      if id ∈ ids then (c.record? k id).or (stored id) else none := by
    rw [OrderedMap.find?_insertAll_entries, hfetched, hcached, or_of_missing]
  have hentry {e : Int × ρ} : e ∈ fetched.entries ↔
      e.1 ∈ missing k c ids ∧ stored e.1 = some e.2 := by
    rw [OrderedMap.mem_entries, hfetched, Option.ite_none_right_eq_some]
  subst hlog
  cases hc : o.cached with
  | false =>
    refine ⟨m, log, rfl, hfound, hasked, fun key hkey => absurd rfl hkey, fun h => ?_⟩
    cases hc.symm.trans h
  | true =>
    obtain ⟨m', log', hwrite, hlog', hwritten⟩ :=
      run_writeCache s fate k o.expiry fetched.nodup_keys m log
    rw [if_pos rfl, Attempt.run_bind_ok hwrite]
    refine ⟨m', log', rfl, hfound, hlog' ▸ hasked, fun key hkey => ⟨hc, ?_⟩, fun _ hall => ?_⟩
    · obtain ⟨e, he, hentry'⟩ := hwritten.changed key hkey
      obtain ⟨hid, hr⟩ := hentry.1 he
      exact ⟨e.1, hid, e.2, hr, hentry'⟩
    · intro id hid r hr
      refine hwritten.accepted (fun e he => ?_) (id, r) (hentry.2 ⟨hid, hr⟩)
      obtain ⟨hid, hr⟩ := hentry.1 he
      exact hall e.1 hid e.2 hr

/-- A load reads the cache, and goes on with the ids that are missing there. -/
theorem run_loadDistinct_eq (s : Store) (fate : Command → Fate) (k : RecordKind ρ) (o : LoadOptions)
    (ids : List Int) (m : Entries) :
    ∃ cached log, (∀ id, cached.find? id =
        if id ∈ ids then (seen k o fate ids m).record? k id else none) ∧ queriesOf log = [] ∧
      (loadDistinct k o ids).run.run (Dialogue.logging (s.sharedWorld fate)) (m, []) =
        (if (missing k (seen k o fate ids m) ids).isEmpty then return cached else do
          let fetched ← fetch k o (missing k (seen k o fate ids m) ids)
          if o.cached then writeCache k o.expiry fetched.entries
          return cached.insertAll fetched.entries : Attempt LoadError (OrderedMap Int ρ)).run.run
            (Dialogue.logging (s.sharedWorld fate)) (m, log) := by
  obtain ⟨cached, log, hread, hcached, hlog⟩ := run_readCache s fate k o ids m []
  have hmissing : (ids.filter fun id => !cached.contains id) =
      missing k (seen k o fate ids m) ids := by
    apply List.filter_congr
    intro id hid
    rw [OrderedMap.contains, hcached, if_pos hid, Option.not_isSome]
  refine ⟨cached, log, hcached, hlog, ?_⟩
  rw [loadDistinct, Attempt.run_bind_ok hread, ← hmissing]

theorem run_loadDistinct (h : k.Fetches s records fit)
    (hasks : ∀ ids, Store.AsksRows ids (Attempt.queries s (k.fetch ids)))
    (hl : Loadable fit o.batchSize (missing k (seen k o fate ids m) ids)) :
    ∃ found m' log, (loadDistinct k o ids).run.run
        (Dialogue.logging (s.sharedWorld fate)) (m, []) = (.ok found, (m', log)) ∧
      Resolved k o fate (seen k o fate ids m) (stored records o.batchSize) ids m found m'
        (queriesOf log) := by
  obtain ⟨cached, log, hcached, hlog, hrun⟩ := run_loadDistinct_eq s fate k o ids m
  rw [hrun]
  split
  · next hnone =>
    refine ⟨cached, m, log, rfl, ?_⟩
    rw [hlog]
    exact resolved_of_full (List.isEmpty_iff.1 hnone) hcached
  · next hsome =>
    rw [List.isEmpty_iff] at hsome
    have hfetch := (yields_fetch (o := o) h).2 ⟨hl.1 hsome, hl.2, rfl⟩
    have hrun := hfetch.run_logging (h := s.sharedWorld fate) (fun _ _ => rfl) m log
    rw [Attempt.run_bind_ok hrun]
    obtain ⟨m', log', hwrite, hresolved⟩ := run_writeBack
      ((queriesOf_append_store log _).trans (congrArg (· ++ _) hlog)) hcached
      (fun _ => find?_fetched h) (asksRows_fetch hasks ⟨_, hfetch⟩)
    exact ⟨_, m', log', hwrite, hresolved⟩

/-- If the missing ids can be loaded, the load resolves all ids. -/
theorem run_load (h : k.Fetches s records fit)
    (hasks : ∀ ids, Store.AsksRows ids (Attempt.queries s (k.fetch ids)))
    (hl : Loadable fit o.batchSize (missing k (seen k o fate (distinct ids) m) (distinct ids))) :
    ∃ found m' log, (load k o ids).run.run
        (Dialogue.logging (s.sharedWorld fate)) (m, []) = (.ok found, (m', log)) ∧
      Resolved k o fate (seen k o fate (distinct ids) m) (stored records o.batchSize)
        (distinct ids) m found m' (queriesOf log) := by
  rw [load]
  split
  · next hids =>
    rw [hids]
    exact ⟨∅, m, [], rfl, resolved_of_full rfl fun id => rfl⟩
  · next id rest hids =>
    rw [hids] at hl ⊢
    exact run_loadDistinct h hasks hl

/-- If a missing id is not fit, the load fails because of a field type, and nothing is written. -/
theorem run_load_of_not_fit (h : k.Fetches s records fit) (hk : OnlyFieldTypes s k)
    (ho : 1 ≤ o.batchSize)
    (hfit : ¬ ∀ id ∈ missing k (seen k o fate (distinct ids) m) (distinct ids), fit id) :
    ∃ cause log, (load k o ids).run.run (Dialogue.logging (s.sharedWorld fate)) (m, []) =
      (.error (.fieldType cause), (m, log)) := by
  rw [load]
  split
  · next hids =>
    rw [hids] at hfit
    exact absurd (List.forall_mem_nil _) hfit
  · next id rest hids =>
    rw [hids] at hfit
    obtain ⟨cached, log, -, -, hrun⟩ := run_loadDistinct_eq s fate k o (id :: rest) m
    rw [hrun]
    obtain ⟨r, hr⟩ := settled_fetch h o (missing k (seen k o fate (id :: rest) m) (id :: rest))
    split
    · next hnone =>
      rw [List.isEmpty_iff.1 hnone] at hfit
      exact absurd (List.forall_mem_nil _) hfit
    · cases r with
      | ok fetched => exact absurd (((yields_fetch h).1 hr).2.1 (by omega)) hfit
      | error e =>
        obtain ⟨cause, rfl⟩ := errs_fetch hk ho _ e hr
        have hrun := hr.run_logging (h := s.sharedWorld fate) (fun _ _ => rfl) m log
        exact ⟨cause, _, Attempt.run_bind_error hrun _⟩

/-! ### Exact resolution -/

/-- A load that returns what it found, against a store that has rows with certain ids. What counts of
the cache is what the load sees of it: nothing if there is no cache or it cannot be read. -/
structure Exact (k : RecordKind ρ) (s : Store) (rowIds : List Int) (each : Int → List ρ)
    (fate : Command → Fate) (o : LoadOptions) (ids : List Int) (m : Entries)
    (found : OrderedMap Int ρ) (m' : Entries) : Prop where
  /-- The records of an id without a valid text are those that it has when fetched alone. -/
  alone : ∀ id ∈ missing k (seen k o fate (distinct ids) m) (distinct ids),
    Attempt.Yields s (k.fetch [id]) (.ok (each id))
  contains_iff : ∀ id, found.contains id = true ↔
    id ∈ ids ∧ (((seen k o fate (distinct ids) m).record? k id).isSome = true ∨ id ∈ rowIds)
  find?_eq : ∀ id ∈ ids, found.find? id =
    ((seen k o fate (distinct ids) m).record? k id).or (each id).getLast?
  /-- The store is asked for the rows of the missing ids, each once, and for nothing else than them
  and what hangs on them. -/
  asks : Store.AsksRows (missing k (seen k o fate (distinct ids) m) (distinct ids))
    (queriesOf ((load k o ids).run.requests (s.sharedWorld fate) m))
  silent : missing k (seen k o fate (distinct ids) m) (distinct ids) = [] →
    queriesOf ((load k o ids).run.requests (s.sharedWorld fate) m) = []
  /-- Without a cache that can be read, all ids are missing. -/
  unseen : (o.cached = true → fate (.read ((distinct ids).map k.cacheKey)) ≠ .answered) →
    missing k (seen k o fate (distinct ids) m) (distinct ids) = distinct ids
  /-- Nothing changes in the cache but that records of missing ids are there. -/
  changed : ∀ key, m' key ≠ m key → o.cached = true ∧
    ∃ id ∈ missing k (seen k o fate (distinct ids) m) (distinct ids), ∃ r,
      (each id).getLast? = some r ∧ key = k.cacheKey id ∧ m' key = some ⟨o.expiry, k.text r⟩
  /-- If the cache accepts all of them, they are all there. -/
  accepted : o.cached = true →
    (∀ id ∈ missing k (seen k o fate (distinct ids) m) (distinct ids), ∀ r,
      (each id).getLast? = some r →
        fate (.write (k.cacheKey id) o.expiry (k.text r)) = .answered) →
    ∀ id ∈ missing k (seen k o fate (distinct ids) m) (distinct ids), ∀ r,
      (each id).getLast? = some r → m' (k.cacheKey id) = some ⟨o.expiry, k.text r⟩

/-- A load finds exactly what there is if the missing ids are fit, and otherwise fails because of
a field type and leaves the cache as it was. -/
structure Resolves (k : RecordKind ρ) (s : Store) (rowIds : List Int) (fit : Int → Prop)
    (fate : Command → Fate) (o : LoadOptions) (ids : List Int) (m : Entries) : Prop where
  found : (∀ id ∈ missing k (seen k o fate (distinct ids) m) (distinct ids), fit id) →
    ∃ found m' each, (load k o ids).run.run (s.sharedWorld fate) m = (.ok found, m') ∧
      Exact k s rowIds each fate o ids m found m'
  refused : (¬ ∀ id ∈ missing k (seen k o fate (distinct ids) m) (distinct ids), fit id) →
    ∃ cause, (load k o ids).run.run (s.sharedWorld fate) m = (.error (.fieldType cause), m)

theorem missing_empty : missing k Contents.empty ids = ids :=
  List.filter_eq_self.2 fun _ _ => rfl

theorem Resolved.exact {rowIds : List Int} {found : OrderedMap Int ρ} {m' : Entries}
    (h : k.Fetches s records fit) (hrows : ∀ id, records [id] ≠ [] ↔ id ∈ rowIds)
    (ho : 1 ≤ o.batchSize)
    (hfit : ∀ id ∈ missing k (seen k o fate (distinct ids) m) (distinct ids), fit id)
    (hresolved : Resolved k o fate (seen k o fate (distinct ids) m) (stored records o.batchSize)
      (distinct ids) m found m'
        (queriesOf ((load k o ids).run.requests (s.sharedWorld fate) m))) :
    Exact k s rowIds (fun id => records [id]) fate o ids m found m' := by
  have hsize : 0 < o.batchSize := by omega
  have hstored : stored records o.batchSize = fun id => (records [id]).getLast? :=
    funext fun id => if_pos hsize
  rw [hstored] at hresolved
  have hasks := hresolved.asks
  rw [flatten_slices (by omega)] at hasks
  refine ⟨fun id hid => h.yields.2 ⟨?_, rfl⟩, fun id => ?_, fun id hid => ?_, hasks, fun hnone => ?_,
    fun hunseen => ?_, hresolved.changed, hresolved.accepted⟩
  · simpa using hfit id hid
  · rw [OrderedMap.contains, hresolved.find?_eq, ← hrows]
    by_cases hid : id ∈ ids <;> simp [hid]
  · rw [hresolved.find?_eq, if_pos ((mem_distinct ..).2 hid)]
  · rw [hnone] at hasks
    exact hasks.eq_nil
  · have hseen : seen k o fate (distinct ids) m = Contents.empty := by
      rw [seen]
      split
      · next hc hf => exact absurd hf (hunseen hc)
      · rfl
    rw [hseen, missing_empty]

theorem resolves {rowIds : List Int} (h : k.Fetches s records fit)
    (hasks : ∀ ids, Store.AsksRows ids (Attempt.queries s (k.fetch ids)))
    (hk : OnlyFieldTypes s k) (hrows : ∀ id, records [id] ≠ [] ↔ id ∈ rowIds)
    (fate : Command → Fate) (ho : 1 ≤ o.batchSize) (ids : List Int) (m : Entries) :
    Resolves k s rowIds fit fate o ids m := by
  have hrun := Dialogue.run_logging (h := s.sharedWorld fate) (load k o ids).run m []
  refine ⟨fun hfit => ?_, fun hfit => ?_⟩
  · obtain ⟨found, m', log, hload, hresolved⟩ :=
      run_load h hasks ⟨fun _ => by omega, fun _ => hfit⟩
    have hlog : (load k o ids).run.requests (s.sharedWorld fate) m = log := by
      rw [Dialogue.requests, hload]
    rw [hload] at hrun
    rw [← hlog] at hresolved
    exact ⟨found, m', _, Prod.ext hrun.1.symm hrun.2.symm, hresolved.exact h hrows ho hfit⟩
  · obtain ⟨cause, log, hload⟩ := run_load_of_not_fit h hk ho hfit
    rw [hload] at hrun
    exact ⟨cause, Prod.ext hrun.1.symm hrun.2.symm⟩

/-- Loads of projects and of versions resolve ids exactly. A version is fit to be fetched if all its
fields have known types. -/
theorem load_resolves (s : Store) (fate : Command → Fate) {o : LoadOptions} (ho : 1 ≤ o.batchSize)
    (ids : List Int) (m : Entries) :
    Resolves .projects s (s.projects.map (·.id)) (fun _ => True) fate o ids m ∧
      Resolves .versions s (s.versions.map (·.id)) (fun id => ∀ r ∈ s.versionsOf [id], s.Typed r.id)
        fate o ids m :=
  ⟨resolves s.fetches_projects s.asksRows_projects (onlyFieldTypes_projects s)
      s.projectRecords_ne_nil fate ho ids m,
    resolves s.fetches_versions s.asksRows_versions (onlyFieldTypes_versions s)
      s.versionRecords_ne_nil fate ho ids m⟩

/-- Ids in any order, some twice and some of nothing, with a text in the cache that is no record and
a write that fails although it has taken effect. -/
theorem load_resolves_sample :
    let fate : Command → Fate
      | .write "versions:9" _ _ => .failed "timed out" true
      | _ => .answered
    let m : Entries := fun key => if key = "versions:7" then some ⟨60, "[1,"⟩ else none
    let o : LoadOptions := ⟨true, 2, 60⟩
    1 ≤ o.batchSize ∧
      Resolves .projects Store.sample (Store.sample.projects.map (·.id)) (fun _ => True) fate o
        [101, 103, 100, 101] m ∧
      Resolves .versions Store.sample (Store.sample.versions.map (·.id))
        (fun id => ∀ r ∈ Store.sample.versionsOf [id], Store.sample.Typed r.id) fate o
        [9, 12, 7, 9] m := by
  intro fate m o
  have ho : 1 ≤ o.batchSize := by decide
  exact ⟨ho, (load_resolves Store.sample fate ho [101, 103, 100, 101] m).1,
    (load_resolves Store.sample fate ho [9, 12, 7, 9] m).2⟩

/-- A version with a field of an unknown type is in the store, but a load of its id fails. -/
theorem not_loaded_unknownType :
    let s : Store := { Store.sample with fields := [⟨1, "tint", "colour", none⟩] }
    let o : LoadOptions := ⟨false, 1, 60⟩
    1 ≤ o.batchSize ∧ 7 ∈ s.versions.map (·.id) ∧
      ¬ ∃ found, ((load .versions o [7]).run.run (s.sharedWorld fun _ => .answered)
        fun _ => none).1 = .ok found := by
  intro s o
  have hfails : ((load .versions o [7]).run.run (s.sharedWorld fun _ => .answered)
      fun _ => none).1.toOption.isSome = false := by decide +kernel
  refine ⟨by decide, by decide, ?_⟩
  rintro ⟨found, hfound⟩
  rw [hfound] at hfails
  cases hfails

end Loading

end CatalogSearch
