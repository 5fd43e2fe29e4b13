import CatalogSearch.Proofs.Loading.Batch
import CatalogSearch.Proofs.Store.Intact

/-!
# Batches one by one

A batch against its ids one by one. The store gives the rows of a batch in the order of their ids,
so a batch fetches what each of its ids fetches alone, from the least id to the greatest
(`Fetches.oneByOne`). Where a list of ids is cut into batches, and how it is ordered, therefore
makes no difference to what is loaded (`OneByOne.loadsAlike`).
-/

namespace CatalogSearch

/-! ### Lists in the order of a number -/

/-- The integers of a list, each once and from the least to the greatest. -/
def increasing (l : List Int) : List Int := sortBy intLe (distinct l)

theorem mem_increasing {l : List Int} {n : Int} : n ∈ increasing l ↔ n ∈ l := by
  rw [increasing, mem_sortBy, mem_distinct]

theorem pairwise_increasing (l : List Int) : (increasing l).Pairwise (· < ·) := by
  have hsorted : (increasing l).Pairwise (· ≤ ·) :=
    (pairwise_sortBy .intLe (distinct l)).imp of_decide_eq_true
  have hnodup : (increasing l).Nodup := (sortBy_perm intLe _).nodup_iff.2 (nodup_distinct l)
  exact (hsorted.and hnodup).imp fun h => Int.lt_iff_le_and_ne.2 h

section

variable {α : Type} {key : α → Int}

/-- In the order of a number, the elements with the least number come first. -/
theorem eq_filter_append_filter {l : List α} {n : Int}
    (hl : l.Pairwise (byKey key intLe · · = true)) (hn : ∀ x ∈ l, n ≤ key x) :
    l = l.filter (fun x => decide (key x = n)) ++ l.filter (fun x => !decide (key x = n)) := by
  induction l with
  | nil => rfl
  | cons x rest ih =>
    obtain ⟨hx, hrest⟩ := List.pairwise_cons.1 hl
    by_cases hkey : key x = n
    · rw [List.filter_cons_of_pos (by simpa using hkey),
        List.filter_cons_of_neg (by simpa using hkey), List.cons_append,
        ← ih hrest fun y hy => hn y (List.mem_cons_of_mem x hy)]
    · have hlt : n < key x := Int.lt_iff_le_and_ne.2 ⟨hn x List.mem_cons_self, Ne.symm hkey⟩
      have hne : ∀ y ∈ x :: rest, key y ≠ n := by
        intro y hy
        rcases List.mem_cons.1 hy with rfl | hy
        · exact hkey
        · have hle : key x ≤ key y := of_decide_eq_true (hx y hy)
          omega
      rw [List.filter_eq_nil_iff.2 fun y hy => by simpa using hne y hy, List.nil_append,
        List.filter_eq_self.2 fun y hy => by simpa using hne y hy]

/-- A list in the order of a number is, number by number, its elements with that number. -/
theorem flatMap_filter_key {l : List α} {numbers : List Int}
    (hl : l.Pairwise (byKey key intLe · · = true)) (hnumbers : numbers.Pairwise (· < ·))
    (hkey : ∀ x ∈ l, key x ∈ numbers) :
    (numbers.flatMap fun n => l.filter fun x => decide (key x = n)) = l := by
  induction numbers generalizing l with
  | nil => exact (List.eq_nil_iff_forall_not_mem.2 fun x hx => List.not_mem_nil (hkey x hx)).symm
  | cons n rest ih =>
    obtain ⟨hn, hrest⟩ := List.pairwise_cons.1 hnumbers
    have hleast : ∀ x ∈ l, n ≤ key x := by
      intro x hx
      rcases List.mem_cons.1 (hkey x hx) with h | h
      · exact Int.le_of_eq h.symm
      · exact Int.le_of_lt (hn _ h)
    -- what is left for the other numbers is the list without the elements of the least one
    have hothers := ih (hl.sublist (List.filter_sublist (p := fun x => !decide (key x = n)))) hrest
      fun x hx => by
        obtain ⟨hx, hne⟩ := List.mem_filter.1 hx
        exact (List.mem_cons.1 (hkey x hx)).resolve_left (by simpa using hne)
    have hfilter : ∀ m ∈ rest, l.filter (fun x => decide (key x = m)) =
        (l.filter fun x => !decide (key x = n)).filter fun x => decide (key x = m) := by
      intro m hm
      rw [List.filter_filter]
      apply List.filter_congr
      intro x _
      have hlt := hn m hm
      grind
    rw [List.flatMap_cons, List.flatMap_congr hfilter, hothers, ← eq_filter_append_filter hl hleast]

end

/-! ### Fetching one by one -/

namespace RecordKind

variable {ρ : Type} {k : RecordKind ρ} {s : Store} {records : List Int → List ρ}
  {fit : Int → Prop} {rowIds : List Int}

/-- Fetching a batch is fetching its ids one by one. An id has records if it is one of the rows; a
batch gives those of its ids that are, from the least to the greatest, each as if it were asked for
alone; and what is loaded without a cache are the records under the ids asked for, whatever the
size of the batches. -/
structure OneByOne (k : RecordKind ρ) (s : Store) (rowIds : List Int) (each : Int → List ρ) :
    Prop where
  alone : ∀ id, Attempt.Yields s (k.fetch [id]) (.ok (each id))
  exists_iff : ∀ id, each id ≠ [] ↔ id ∈ rowIds
  batch : ∀ ids, Attempt.Yields s (k.fetch ids)
    (.ok ((increasing (ids.filter (rowIds.contains ·))).flatMap each))
  load : ∀ (o : LoadOptions) (ids : List Int), o.cached = false → 1 ≤ o.batchSize →
    ∃ m, Attempt.Yields s (Loading.load k o ids) (.ok m) ∧
      ∀ id, m.find? id = if id ∈ ids then (each id).getLast? else none

/-- Fetching is one by one if the records of a batch are in the order of their ids. -/
theorem Fetches.oneByOne (h : k.Fetches s records fit) (hfit : ∀ id, fit id)
    (hsorted : ∀ ids, (records ids).Pairwise (byKey k.id intLe · · = true))
    (hrows : ∀ id, records [id] ≠ [] ↔ id ∈ rowIds) :
    k.OneByOne s rowIds fun id => records [id] where
  alone id := h.yields.2 ⟨fun id _ => hfit id, rfl⟩
  exists_iff := hrows
  batch ids := by
    refine h.yields.2 ⟨fun id _ => hfit id, ?_⟩
    have hkey : ∀ r ∈ records ids, k.id r ∈ increasing (ids.filter (rowIds.contains ·)) := by
      intro r hr
      obtain ⟨hid, hr⟩ := h.isLocal.mem_iff.1 hr
      have hrow := (hrows (k.id r)).1 (List.ne_nil_of_mem hr)
      exact mem_increasing.2 (List.mem_filter.2 ⟨hid, List.contains_iff_mem.2 hrow⟩)
    rw [← flatMap_filter_key (hsorted ids) (pairwise_increasing _) hkey]
    apply List.flatMap_congr
    intro id hid
    exact h.isLocal.filter_eq (List.mem_filter.1 (mem_increasing.1 hid)).1
  load o ids hc ho := by
    have hloadable : Loading.Loadable fit o.batchSize ids :=
      ⟨fun _ => by omega, fun _ id _ => hfit id⟩
    obtain ⟨m, hm⟩ := Loading.exists_yields_load h hc hloadable
    have hsize : 0 < o.batchSize := by omega
    refine ⟨m, hm, fun id => ?_⟩
    rw [(Loading.yields_load h hc hm).2 id, Loading.stored, if_pos hsize]

/-- Neither the size of the batches nor the order of the ids, nor how often one is asked for, makes
a difference to what is loaded without a cache. -/
def LoadsAlike (k : RecordKind ρ) (s : Store) : Prop :=
  ∀ (o o' : LoadOptions) (ids ids' : List Int), o.cached = false → 1 ≤ o.batchSize →
    o'.cached = false → 1 ≤ o'.batchSize → (∀ id, id ∈ ids ↔ id ∈ ids') →
    ∃ m m', Attempt.Yields s (Loading.load k o ids) (.ok m) ∧
      Attempt.Yields s (Loading.load k o' ids') (.ok m') ∧ ∀ id, m.find? id = m'.find? id

theorem OneByOne.loadsAlike {each : Int → List ρ} (h : k.OneByOne s rowIds each) :
    k.LoadsAlike s := by
  intro o o' ids ids' hc ho hc' ho' hids
  obtain ⟨m, hm, hfind⟩ := h.load o ids hc ho
  obtain ⟨m', hm', hfind'⟩ := h.load o' ids' hc' ho'
  refine ⟨m, m', hm, hm', fun id => ?_⟩
  simp only [hfind, hfind', hids]

end RecordKind

namespace Store

variable (s : Store)

theorem oneByOne_projects :
    RecordKind.projects.OneByOne s (s.projects.map (·.id)) fun id => s.projectRecords [id] :=
  s.fetches_projects.oneByOne (fun _ => trivial)
    (fun _ => List.pairwise_map.2 (pairwise_sortBy (.byInt ProjectRow.id) _))
    s.projectRecords_ne_nil

theorem oneByOne_versions (hs : s.ValidFieldTypes) :
    RecordKind.versions.OneByOne s (s.versions.map (·.id)) fun id => s.versionRecords [id] :=
  s.fetches_versions.oneByOne (fun _ _ _ => hs.typed _)
    (fun _ => List.pairwise_map.2 (pairwise_sortBy (.byInt VersionRow.id) _))
    s.versionRecords_ne_nil

/-- If all fields have known types, batches of projects and of versions are fetched as one by one,
and what is loaded without a cache depends neither on the size of the batches nor on the order of
the ids. -/
theorem fetches_oneByOne (hs : s.ValidFieldTypes) :
    (∃ each, RecordKind.projects.OneByOne s (s.projects.map (·.id)) each) ∧
      (∃ each, RecordKind.versions.OneByOne s (s.versions.map (·.id)) each) ∧
      RecordKind.projects.LoadsAlike s ∧ RecordKind.versions.LoadsAlike s :=
  ⟨⟨_, s.oneByOne_projects⟩, ⟨_, s.oneByOne_versions hs⟩, s.oneByOne_projects.loadsAlike,
    (s.oneByOne_versions hs).loadsAlike⟩

theorem fetches_oneByOne_sample :
    sample.ValidFieldTypes ∧
      (∃ each, RecordKind.projects.OneByOne sample (sample.projects.map (·.id)) each) ∧
      (∃ each, RecordKind.versions.OneByOne sample (sample.versions.map (·.id)) each) ∧
      RecordKind.projects.LoadsAlike sample ∧ RecordKind.versions.LoadsAlike sample := by
  have hs : sample.ValidFieldTypes := by decide +kernel
  exact ⟨hs, sample.fetches_oneByOne hs⟩

end Store

end CatalogSearch
