import CatalogSearch.Loading.Batch
import CatalogSearch.Proofs.Data.OrderedMap
import CatalogSearch.Proofs.Loading.Batch

/-!
# Loading by rules

`Loading.Rules` says of each single step of a load which condition it keeps on the other side, which
property the records have that it finds, and what its errors come from; the load as a whole then
keeps the condition, all its records have the property, and so do its errors (`Rules.ensures_load`).
-/

namespace CatalogSearch.Loading

variable {ρ σ : Type} {k : RecordKind ρ} {o : LoadOptions} {P : Int → ρ → Prop}
  {B : Behaviour Request Request.Reply σ} {I J : σ → Prop} {Q : LoadError → Prop} {s : σ}

/-! ### Maps of records -/

/-- All records of a map have a property, under their ids. -/
def Holds (P : Int → ρ → Prop) (m : OrderedMap Int ρ) : Prop :=
  ∀ id r, m.find? id = some r → P id r

theorem holds_empty : Holds P ∅ := by
  intro id r h
  cases h

theorem holds_ofList {l : List (Int × ρ)} (h : ∀ e ∈ l, P e.1 e.2) :
    Holds P (OrderedMap.ofList l) := by
  intro id r hr
  rw [OrderedMap.find?_ofList] at hr
  exact h _ (List.mem_reverse.1 (OrderedMap.mem_of_lookup hr))

theorem Holds.insertAll {m m' : OrderedMap Int ρ} (hm : Holds P m) (hm' : Holds P m') :
    Holds P (m.insertAll m'.entries) := by
  intro id r hr
  rw [OrderedMap.find?_insertAll_entries] at hr
  rcases Option.or_eq_some_iff.1 hr with hr | ⟨-, hr⟩
  · exact hm' id r hr
  · exact hm id r hr

/-- What the texts of the cache are read as has the property. -/
theorem holds_validRecords {ids : List Int} {texts : List (Option String)}
    (h : ∀ id text r, (id, some text) ∈ ids.zip texts → k.ofText? text = some r → P id r) :
    Holds P (validRecords k ids texts) := by
  refine holds_ofList fun e he => ?_
  obtain ⟨⟨id, text?⟩, hmem, hvalid⟩ := List.mem_filterMap.1 he
  obtain ⟨r, hr, rfl⟩ := Option.map_eq_some_iff.1 hvalid
  obtain ⟨text, rfl, hread⟩ := Option.bind_eq_some_iff.1 hr
  exact h id text r hmem hread

/-! ### The steps -/

/-- Writing keeps what each of its commands keeps. -/
theorem ensures_writeCache_of {entries : List (Int × ρ)} (hI : ∀ t, J t → I t)
    (hwrite : ∀ e ∈ entries, ∀ t x u, J t →
      B (.cache (.write (k.cacheKey e.1) o.expiry (k.text e.2))) t x u →
        J u ∧ ∀ message, x = .error (.broken message) → Q (.cache message))
    (hs : J s) :
    Attempt.Ensures B I (fun _ t => J t) (fun e t => J t ∧ Q e) (writeCache k o.expiry entries)
      s := by
  induction entries generalizing s with
  | nil => exact hs
  | cons e rest ih =>
    obtain ⟨he, hrest⟩ := List.forall_mem_cons.1 hwrite
    refine Attempt.ensures_bind.2 (Attempt.ensures_outcome.2 (Attempt.ensures_askCache.2 ?_))
    intro x t hx
    obtain ⟨ht, hbroken⟩ := he s x t hs hx
    refine ⟨hI t ht, ?_⟩
    cases x with
    | ok _ => exact ih hrest ht
    | error fault =>
      cases fault with
      | unreachable message => exact ht
      | broken message => exact ⟨ht, hbroken message rfl⟩

/-- What a load comes to, by its steps. The cache is read, the store is asked for the ids that are
missing there, if any, and what it has is written to the cache. -/
theorem ensures_loadDistinct_of {K : σ → Prop} {C G : OrderedMap Int ρ → Prop}
    {F : OrderedMap Int ρ → OrderedMap Int ρ → Prop} {E : LoadError → σ → Prop} {ids : List Int}
    (hread : Attempt.Ensures B I (fun m t => J t ∧ C m) E (readCache k o ids) s)
    (hfull : ∀ cached, C cached → (ids.filter fun id => !cached.contains id) = [] → G cached)
    (hfetch : ∀ cached t, J t → C cached → (ids.filter fun id => !cached.contains id) ≠ [] →
      Attempt.Ensures B I (fun m t => J t ∧ F cached m) E
        (fetch k o (ids.filter fun id => !cached.contains id)) t)
    (hinsert : ∀ cached fetched, C cached → F cached fetched →
      G (cached.insertAll fetched.entries))
    (hwrite : ∀ cached fetched t, J t → F cached fetched →
      Attempt.Ensures B I (fun _ t => K t) E (writeCache k o.expiry fetched.entries) t)
    (hK : ∀ t, J t → K t) :
    Attempt.Ensures B I (fun m t => K t ∧ G m) E (loadDistinct k o ids) s := by
  refine Attempt.ensures_bind.2 (hread.mono ?_ fun _ _ h => h)
  rintro cached t ⟨ht, hcached⟩
  dsimp only
  split
  · next hmissing => exact ⟨hK t ht, hfull cached hcached (List.isEmpty_iff.1 hmissing)⟩
  next hmissing =>
  rw [List.isEmpty_iff] at hmissing
  refine Attempt.ensures_bind.2 ((hfetch cached t ht hcached hmissing).mono ?_ fun _ _ h => h)
  rintro fetched u ⟨hu, hfetched⟩
  have hall := hinsert cached fetched hcached hfetched
  split
  · exact Attempt.ensures_bind.2 ((hwrite cached fetched u hu hfetched).mono
      (fun _ v hv => ⟨hv, hall⟩) fun _ _ h => h)
  · exact ⟨hK u hu, hall⟩

/-- Against a store that answers, what is fetched has the property if all the store has does. -/
theorem ensures_fetch_answered {st : Store} {records : List Int → List ρ} {fit : Int → Prop}
    {ids : List Int} (h : k.Fetches st records fit) (hB : Dialogue.AnswersFrom st B J)
    (hP : ∀ id r, r ∈ records [id] → P id r)
    (hQ : ∀ e, Attempt.Yields st (fetch k o ids) (.error e) → Q e) (hs : J s) :
    Attempt.Ensures B J (fun m t => J t ∧ Holds P m) (fun e t => J t ∧ Q e) (fetch k o ids) s := by
  obtain ⟨r, hr⟩ := settled_fetch h o ids
  refine hr.ensures hB hs (fun _ ht => ht) fun t ht => ?_
  cases r with
  | ok m =>
    obtain ⟨-, -, rfl⟩ := (yields_fetch h).1 hr
    refine ⟨ht, fun id r hfind => hP id r ?_⟩
    rw [find?_fetched h] at hfind
    split at hfind
    · exact stored_mem hfind
    · cases hfind
  | error e => exact ⟨ht, hQ e hr⟩

/-! ### The rules -/

/-- The rules of a load: each step keeps the condition `J`, the records that it finds have the
property `P`, and its errors come from what `Q` says. -/
structure Rules (B : Behaviour Request Request.Reply σ) (J : σ → Prop) (P : Int → ρ → Prop)
    (Q : LoadError → Prop) (k : RecordKind ρ) (o : LoadOptions) : Prop where
  read : ∀ {ids : List Int} {s t : σ} {x : Except Cache.Fault (List (Option String))}, J s →
    B (.cache (.read (ids.map k.cacheKey))) s x t →
      J t ∧ (∀ texts, x = .ok texts → Holds P (validRecords k ids texts)) ∧
        ∀ message, x = .error (.broken message) → Q (.cache message)
  fetch : ∀ {ids : List Int} {s : σ}, J s →
    Attempt.Ensures B J (fun m t => J t ∧ Holds P m) (fun e t => J t ∧ Q e) (fetch k o ids) s
  write : ∀ {id : Int} {r : ρ} {s t : σ} {x : Except Cache.Fault Unit}, J s → P id r →
    B (.cache (.write (k.cacheKey id) o.expiry (k.text r))) s x t →
      J t ∧ ∀ message, x = .error (.broken message) → Q (.cache message)

namespace Rules

theorem ensures_readCache (h : Rules B J P Q k o) (hs : J s) (ids : List Int) :
    Attempt.Ensures B J (fun m t => J t ∧ Holds P m) (fun e t => J t ∧ Q e)
      (readCache k o ids) s := by
  rw [readCache]
  split
  · refine Attempt.ensures_bind.2 (Attempt.ensures_outcome.2 (Attempt.ensures_askCache.2 ?_))
    intro x t hx
    obtain ⟨ht, hfound, hbroken⟩ := h.read hs hx
    refine ⟨ht, ?_⟩
    cases x with
    | ok texts => exact ⟨ht, hfound texts rfl⟩
    | error fault =>
      cases fault with
      | unreachable message => exact ⟨ht, holds_empty⟩
      | broken message => exact ⟨ht, hbroken message rfl⟩
  · exact ⟨hs, holds_empty⟩

theorem ensures_loadDistinct (h : Rules B J P Q k o) (hs : J s) (ids : List Int) :
    Attempt.Ensures B J (fun m t => J t ∧ Holds P m) (fun e t => J t ∧ Q e)
      (loadDistinct k o ids) s := by
  apply ensures_loadDistinct_of (F := fun _ => Holds P) (h.ensures_readCache hs ids)
  · intro cached hcached _
    exact hcached
  · intro cached t ht _ _
    exact h.fetch ht
  · intro cached fetched hcached hfetched
    exact hcached.insertAll hfetched
  · intro cached fetched t ht hfetched
    refine ensures_writeCache_of (fun _ ht => ht) ?_ ht
    exact fun e he _ _ _ ht hx => h.write ht (hfetched e.1 e.2 (OrderedMap.mem_entries.1 he)) hx
  · exact fun _ ht => ht

/-- What each step of a load keeps and finds, the load keeps and finds. -/
theorem ensures_load (h : Rules B J P Q k o) (hs : J s) (ids : List Int) :
    Attempt.Ensures B J (fun m t => J t ∧ Holds P m) (fun e t => J t ∧ Q e) (load k o ids) s := by
  rw [load]
  split
  · exact ⟨hs, holds_empty⟩
  · exact h.ensures_loadDistinct hs _

end Rules

theorem ensures_loadBoth_of {V : Int → Version → Prop} {P : Int → Project → Prop}
    (hv : Rules B J V Q .versions o) (hp : Rules B J P Q .projects o) (hs : J s)
    (versionIds projectIds : List Int) :
    Attempt.Ensures B J (fun m t => J t ∧ Holds V m.1 ∧ Holds P m.2) (fun e t => J t ∧ Q e)
      (loadBoth o versionIds projectIds) s := by
  refine Attempt.ensures_bind.2 (Attempt.ensures_outcome.2
    ((hv.ensures_load hs versionIds).mono ?_ ?_))
  · rintro versions t ⟨ht, hversions⟩
    refine Attempt.ensures_bind.2 (Attempt.ensures_outcome.2
      ((hp.ensures_load ht projectIds).mono ?_ ?_))
    · exact fun projects u hu => ⟨hu.1, hversions, hu.2⟩
    · exact fun e u hu => hu
  · rintro e t ⟨ht, he⟩
    refine Attempt.ensures_bind.2 (Attempt.ensures_outcome.2
      ((hp.ensures_load ht projectIds).mono ?_ ?_))
    · exact fun _ u hu => ⟨hu.1, he⟩
    · exact fun _ u hu => ⟨hu.1, he⟩

end CatalogSearch.Loading
