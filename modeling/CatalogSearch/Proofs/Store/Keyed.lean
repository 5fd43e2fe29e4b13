import CatalogSearch.Proofs.Store.Intact

/-!
# Keys of a store

Stores whose tables have no two rows that agree on a key. The store refuses every write that would
leave another one (`keyed_of_written`), so this holds of all stores that there can be, whatever
becomes of their references.
-/

namespace CatalogSearch.Store

/-- No two rows of a table agree on a key. -/
def Keyed (s : Store) : Prop := ∀ t, keysDiffer (s.rows t) = true

variable {ρ : Type} [Row ρ] {rows : List ρ} {s s' : Store}

/-! ### Keys of single tables -/

namespace Keyed

theorem nodup_fields (h : s.Keyed) : (s.fields.map FieldRow.id).Nodup :=
  nodup_numbers (h .fields) "id" (by decide) fun _ => rfl

theorem nodup_enumValues (h : s.Keyed) : (s.enumValues.map EnumValueRow.id).Nodup :=
  nodup_numbers (h .enumValues) "id" (by decide) fun _ => rfl

theorem nodup_versionFields (h : s.Keyed) : (s.versionFields.map VersionFieldRow.id).Nodup :=
  nodup_numbers (h .versionFields) "id" (by decide) fun _ => rfl

theorem nodup_gallery (h : s.Keyed) : (s.gallery.map GalleryRow.id).Nodup :=
  nodup_numbers (h .gallery) "id" (by decide) fun _ => rfl

theorem nodup_categories (h : s.Keyed) : (s.categories.map CategoryRow.id).Nodup :=
  nodup_numbers (h .categories) "id" (by decide) fun _ => rfl

theorem nodup_categoryNames (h : s.Keyed) : (s.categories.map CategoryRow.name).Nodup :=
  nodup_map_of_keysDiffer (h .categories) ["category"] (fun n => [.text n]) (by decide) fun _ => rfl

theorem nodup_linkPlatforms (h : s.Keyed) : (s.linkPlatforms.map LinkPlatformRow.id).Nodup :=
  nodup_numbers (h .linkPlatforms) "id" (by decide) fun _ => rfl

theorem nodup_platformNames (h : s.Keyed) : (s.linkPlatforms.map LinkPlatformRow.name).Nodup :=
  nodup_map_of_keysDiffer (h .linkPlatforms) ["name"] (fun n => [.text n]) (by decide) fun _ => rfl

/-- Where two numbers are a key together, rows with the same first one differ in the second. -/
theorem nodup_second {l : List ρ} (h : keysDiffer l = true) (first second : String)
    {owner number : ρ → Int} (hc : [first, second] ∈ Row.keys ρ)
    (hn : ∀ r, keyOf [first, second] r = some [.int (owner r), .int (number r)]) (id : Int) :
    ((l.filter fun r => owner r = id).map number).Nodup := by
  have hpairs : (l.map fun r => (owner r, number r)).Nodup :=
    nodup_map_of_keysDiffer h [first, second] (fun k => [.int k.1, .int k.2]) hc hn
  have hsame : ((l.filter fun r => owner r = id).map number).map (fun n => (id, n)) =
      (l.filter fun r => owner r = id).map fun r => (owner r, number r) := by
    rw [List.map_map]
    apply List.map_congr_left
    intro r hr
    simp [of_decide_eq_true (List.mem_filter.1 hr).2]
  apply List.Nodup.of_map fun n => (id, n)
  rw [hsame]
  exact hpairs.sublist (List.filter_sublist.map _)

theorem nodup_categoriesOf (h : s.Keyed) (id : Int) :
    ((s.projectCategories.filter fun c => c.projectId = id).map
      ProjectCategoryRow.categoryId).Nodup :=
  nodup_second (h .projectCategories) "joining_mod_id" "joining_category_id" (by decide)
    (fun _ => rfl) id

theorem nodup_platformsOf (h : s.Keyed) (id : Int) :
    ((s.links.filter fun l => l.projectId = id).map LinkRow.platformId).Nodup :=
  nodup_second (h .links) "joining_mod_id" "joining_platform_id" (by decide) (fun _ => rfl) id

end Keyed

/-! ### Writes keep keys apart -/

theorem rows_setRows_self (s : Store) (t : Table) (rows : List t.Rows) :
    (s.setRows t rows).rows t = rows := by
  cases t <;> rfl

theorem rows_setRows_of_ne {t t' : Table} (h : t' ≠ t) (s : Store) (rows : List t.Rows) :
    (s.setRows t rows).rows t' = s.rows t' := by
  cases t <;> cases t' <;> first | rfl | exact absurd rfl h

theorem Keyed.setRows (h : s.Keyed) {t : Table} {rows : List t.Rows} (hr : keysDiffer rows = true) :
    (s.setRows t rows).Keyed := by
  intro t'
  by_cases ht : t' = t
  · subst ht
    rw [rows_setRows_self]
    exact hr
  · rw [rows_setRows_of_ne ht]
    exact h t'

theorem keysDiffer_iff :
    keysDiffer rows = true ↔ ∀ columns ∈ Row.keys ρ, (rows.filterMap (keyOf columns)).Nodup := by
  constructor
  · intro h columns hc
    exact nodup_filterMap_keyOf h hc
  · intro h
    apply List.all_eq_true.2
    intro columns hc
    simp [distinct_of_nodup (h columns hc)]

theorem keysDiffer_of_sublist {rows' : List ρ} (h : keysDiffer rows = true)
    (hs : rows'.Sublist rows) : keysDiffer rows' = true := by
  rw [keysDiffer_iff] at h ⊢
  intro columns hc
  exact (h columns hc).sublist (hs.filterMap _)

theorem keysDiffer_of_checked {given : Option (List ρ)} (h : checked given = .ok rows) :
    keysDiffer rows = true := by
  unfold checked at h
  split at h
  · split at h
    · next hd => cases h; exact hd
    · cases h
  · cases h

theorem Keyed.insert (h : s.Keyed) {tables : List (Table × List Cells)}
    (hs : s.insert tables = .ok s') : s'.Keyed := by
  induction tables generalizing s with
  | nil => cases hs; exact h
  | cons table rest ih =>
    obtain ⟨t, given⟩ := table
    rw [Store.insert] at hs
    cases hrows : checked (addRows (s.rows t) given) with
    | error e => rw [hrows] at hs; cases hs
    | ok rows =>
      rw [hrows] at hs
      exact ih (h.setRows (keysDiffer_of_checked hrows)) hs

theorem Keyed.update (h : s.Keyed) {t : Table} {held given : Cells} {n : Nat}
    (hs : s.update t held given = .ok (s', n)) : s'.Keyed := by
  rw [Store.update] at hs
  cases hrows : checked (changeRows held given (s.rows t)) with
  | error e => rw [hrows] at hs; cases hs
  | ok rows =>
    rw [hrows] at hs
    cases hs
    exact h.setRows (keysDiffer_of_checked hrows)

theorem Keyed.delete (h : s.Keyed) (t : Table) (held : Cells) : (s.delete t held).1.Keyed :=
  h.setRows (keysDiffer_of_sublist (h t) List.filter_sublist)

theorem keyed_empty : empty.Keyed := by
  intro t
  cases t <;> decide

/-- The stores that writing makes of the one without rows. -/
inductive Written : Store → Prop where
  | empty : Written .empty
  | insert {s s' : Store} {tables : List (Table × List Cells)} :
    Written s → s.insert tables = .ok s' → Written s'
  | update {s s' : Store} {t : Table} {held given : Cells} {n : Nat} :
    Written s → s.update t held given = .ok (s', n) → Written s'
  | delete {s : Store} (t : Table) (held : Cells) : Written s → Written (s.delete t held).1

theorem keyed_of_written (h : Written s) : s.Keyed := by
  induction h with
  | empty => exact keyed_empty
  | insert _ hs ih => exact ih.insert hs
  | update _ hs ih => exact ih.update hs
  | delete t held _ ih => exact ih.delete t held

end CatalogSearch.Store
