import CatalogSearch.Proofs.Data.Sorting
import CatalogSearch.Store.Query

/-!
# Queries for many ids

What a query for many ids at once gives for one of them is what it gives when it is asked for that
id alone: it is `Local`.
-/

namespace CatalogSearch

variable {α ρ : Type}

theorem filter_distinctBy {κ : Type} [DecidableEq κ] {key : α → κ} {p : α → Bool} {l : List α}
    (hp : ∀ x ∈ l, ∀ y ∈ l, key x = key y → p x = p y) :
    (distinctBy key l).filter p = distinctBy key (l.filter p) := by
  induction l with
  | nil => rfl
  | cons x rest ih =>
    have hrest := ih fun y hy z hz =>
      hp y (List.mem_cons_of_mem x hy) z (List.mem_cons_of_mem x hz)
    rw [distinctBy]
    by_cases hx : p x = true
    · rw [List.filter_cons_of_pos hx, List.filter_cons_of_pos hx, distinctBy, ← hrest,
        List.filter_filter, List.filter_filter]
      simp only [Bool.and_comm]
    · rw [List.filter_cons_of_neg hx, List.filter_cons_of_neg hx, ← hrest, List.filter_filter]
      refine List.filter_congr fun y hy => ?_
      by_cases hxy : key y = key x
      · have hpy := hp y (List.mem_cons_of_mem x ((distinctBy_sublist key rest).subset hy)) x
          List.mem_cons_self hxy
        simp [hpy, hx]
      · simp [hxy]

theorem filter_distinct [DecidableEq α] (p : α → Bool) (l : List α) :
    (distinct l).filter p = distinct (l.filter p) :=
  filter_distinctBy fun _ _ _ _ hxy => congrArg p hxy

theorem filter_contains_singleton (rows : List ρ) (key : ρ → Int) (id : Int) :
    rows.filter (fun r => [id].contains (key r)) = rows.filter fun r => key r = id :=
  List.filter_congr fun r _ => by simp

namespace Store

/-- For each of the ids the query gives what it gives for that id alone, and nothing for others. -/
structure Local (key : α → Int) (query : List Int → List α) : Prop where
  filter_eq : ∀ {ids : List Int} {id : Int}, id ∈ ids →
    (query ids).filter (fun x => decide (key x = id)) = query [id]
  key_mem : ∀ {ids : List Int} {x : α}, x ∈ query ids → key x ∈ ids

namespace Local

variable {key : α → Int} {query : List Int → List α}

theorem mem_iff (h : Local key query) {ids : List Int} {x : α} :
    x ∈ query ids ↔ key x ∈ ids ∧ x ∈ query [key x] := by
  refine ⟨fun hx => ⟨h.key_mem hx, ?_⟩, fun ⟨hid, hx⟩ => ?_⟩
  · rw [← h.filter_eq (h.key_mem hx)]
    exact List.mem_filter.2 ⟨hx, decide_eq_true rfl⟩
  · rw [← h.filter_eq hid] at hx
    exact (List.mem_filter.1 hx).1

theorem nil (h : Local key query) : query [] = [] :=
  List.eq_nil_iff_forall_not_mem.2 fun _ hx => List.not_mem_nil (h.key_mem hx)

theorem of_flatMap (rows : List ρ) {owner : ρ → Int} {f : ρ → List α}
    (hf : ∀ r, ∀ x ∈ f r, key x = owner r) :
    Local key fun ids => (rows.filter fun r => ids.contains (owner r)).flatMap f where
  filter_eq {ids id} hid := by
    induction rows with
    | nil => rfl
    | cons r rest ih =>
      by_cases hr : owner r = id
      · subst hr
        have hall : (f r).filter (fun x => decide (key x = owner r)) = f r :=
          List.filter_eq_self.2 fun x hx => decide_eq_true (hf r x hx)
        rw [List.filter_cons_of_pos (p := fun r => ids.contains (owner r))
            (List.contains_iff_mem.2 hid),
          List.filter_cons_of_pos (by simp), List.flatMap_cons, List.flatMap_cons,
          List.filter_append, hall, ih]
      · have hnone : (f r).filter (fun x => decide (key x = id)) = [] :=
          List.filter_eq_nil_iff.2 fun x hx => by simpa [hf r x hx] using hr
        rw [List.filter_cons_of_neg (p := fun r => [id].contains (owner r)) (by simpa using hr),
          ← ih]
        by_cases hids : ids.contains (owner r) = true
        · rw [List.filter_cons_of_pos (p := fun r => ids.contains (owner r)) hids,
            List.flatMap_cons, List.filter_append, hnone, List.nil_append]
        · rw [List.filter_cons_of_neg (p := fun r => ids.contains (owner r)) hids]
  key_mem hx := by
    obtain ⟨r, hr, hx⟩ := List.mem_flatMap.1 hx
    rw [hf r _ hx]
    exact List.contains_iff_mem.1 (List.mem_filter.1 hr).2

theorem filter_self (h : Local key query) (id : Int) :
    (query [id]).filter (fun x => decide (key x = id)) = query [id] :=
  h.filter_eq List.mem_cons_self

theorem of_filter (rows : List α) (key : α → Int) :
    Local key fun ids => rows.filter fun x => ids.contains (key x) where
  filter_eq {ids id} hid := by
    rw [List.filter_filter]
    refine List.filter_congr fun x _ => ?_
    by_cases hx : key x = id
    · simp [hx, hid]
    · simp [hx]
  key_mem hx := List.contains_iff_mem.1 (List.mem_filter.1 hx).2

theorem sortBy (h : Local key query) {le : α → α → Bool} (hle : TotalPreorder le) :
    Local key fun ids => sortBy le (query ids) where
  filter_eq hid := by rw [filter_sortBy hle, h.filter_eq hid]
  key_mem hx := h.key_mem ((mem_sortBy ..).1 hx)

theorem map {β : Type} {key' : β → Int} (h : Local key query) {f : α → β}
    (hf : ∀ x, key' (f x) = key x) : Local key' fun ids => (query ids).map f where
  filter_eq {ids id} hid := by
    rw [List.filter_map, ← h.filter_eq hid]
    exact congrArg (List.map f) (List.filter_congr fun x _ => by rw [Function.comp, hf])
  key_mem hx := by
    obtain ⟨y, hy, rfl⟩ := List.mem_map.1 hx
    exact (hf y).symm ▸ h.key_mem hy

/-- What holds of all that the query gives, holds for each id. -/
theorem forall_mem_iff (h : Local key query) {ids : List Int} {p : α → Prop} :
    (∀ x ∈ query ids, p x) ↔ ∀ id ∈ ids, ∀ x ∈ query [id], p x := by
  refine ⟨fun hp id hid x hx => hp x (h.mem_iff.2 ?_), fun hp x hx => ?_⟩
  · obtain rfl := List.mem_singleton.1 (h.key_mem hx)
    exact ⟨hid, hx⟩
  · obtain ⟨hid, hx⟩ := h.mem_iff.1 hx
    exact hp _ hid x hx

theorem distinct [DecidableEq α] (h : Local key query) :
    Local key fun ids => distinct (query ids) where
  filter_eq {ids id} hid := by
    rw [filter_distinct, h.filter_eq hid]
  key_mem hx := h.key_mem ((mem_distinct ..).1 hx)

end Local

/-! ### The queries -/

variable (s : Store)

theorem local_versionsOf : Local VersionRow.id s.versionsOf :=
  (Local.of_filter s.versions VersionRow.id).sortBy (.byInt _)

theorem local_projectsOf : Local ProjectRow.id s.projectsOf :=
  (Local.of_filter s.projects ProjectRow.id).sortBy (.byInt _)

theorem mem_versionsOf {ids : List Int} {r : VersionRow} :
    r ∈ s.versionsOf ids ↔ r ∈ s.versions ∧ r.id ∈ ids := by
  simp [versionsOf]

theorem mem_projectsOf {ids : List Int} {r : ProjectRow} :
    r ∈ s.projectsOf ids ↔ r ∈ s.projects ∧ r.id ∈ ids := by
  simp [projectsOf]

theorem totalPreorder_nameLe : TotalPreorder nameLe := TotalPreorder.lexLe (.byInt _) (.byText _)

theorem local_loadersOf : Local NameOf.ownerId s.loadersOf := by
  refine (Local.of_flatMap s.versionLoaders fun vl x hx => ?_).sortBy totalPreorder_nameLe
  obtain ⟨l, -, rfl⟩ := List.mem_map.1 hx
  rfl

theorem local_projectTypesOfVersions : Local NameOf.ownerId s.projectTypesOfVersions := by
  refine (Local.of_flatMap s.versionLoaders fun vl x hx => ?_).distinct.sortBy totalPreorder_nameLe
  obtain ⟨l, -, rfl⟩ := List.mem_map.1 hx
  rfl

theorem local_fieldValuesOf : Local FieldValue.versionId s.fieldValuesOf := by
  refine (Local.of_flatMap s.versionFields fun vf x hx => ?_).sortBy
    (TotalPreorder.lexLe (.byInt _) (.lexLe (.byInt _) (.byInt _)))
  obtain ⟨f, -, hx⟩ := List.mem_flatMap.1 hx
  obtain ⟨e, -, rfl⟩ := List.mem_map.1 hx
  rfl

theorem local_categoriesOf : Local CategoryOf.projectId s.categoriesOf := by
  refine (Local.of_flatMap s.projectCategories fun pc x hx => ?_).sortBy
    (TotalPreorder.lexLe (.byInt _) (.byText _))
  obtain ⟨c, -, rfl⟩ := List.mem_map.1 hx
  rfl

theorem totalPreorder_wallLe : TotalPreorder Moment.wallLe where
  total a b := by
    simp only [Moment.wallLe, decide_eq_true_eq]
    exact Int.le_total _ _
  trans hab hbc := by
    simp only [Moment.wallLe, decide_eq_true_eq] at hab hbc ⊢
    exact Int.le_trans hab hbc

theorem local_versionsOfProjects : Local VersionRow.projectId s.versionsOfProjects :=
  (Local.of_filter s.versions VersionRow.projectId).sortBy
    (TotalPreorder.lexLe (.byInt _) (.lexLe (totalPreorder_wallLe.byKey _) (.byInt _)))

theorem local_galleryOf : Local GalleryRow.projectId s.galleryOf :=
  (Local.of_filter s.gallery GalleryRow.projectId).sortBy
    (TotalPreorder.lexLe (.byInt _) (.lexLe (.byInt _) (.byInt _)))

theorem local_linksOf : Local LinkOf.projectId s.linksOf := by
  refine (Local.of_flatMap s.links fun l x hx => ?_).sortBy
    (TotalPreorder.lexLe (.byInt _) (.byText _))
  obtain ⟨c, -, rfl⟩ := List.mem_map.1 hx
  rfl

theorem local_namesOfProjects (names : Int → List String) :
    Local NameOf.ownerId (s.namesOfProjects names) := by
  refine (Local.of_flatMap s.versions fun v x hx => ?_).distinct.sortBy totalPreorder_nameLe
  obtain ⟨l, -, hx⟩ := List.mem_flatMap.1 hx
  obtain ⟨n, -, rfl⟩ := List.mem_map.1 hx
  rfl

end Store

end CatalogSearch
