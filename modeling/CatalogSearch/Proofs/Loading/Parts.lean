import CatalogSearch.Proofs.Loading.Hydration
import CatalogSearch.Proofs.Store.Keyed

/-!
# Parts of a project

What hangs on a project. In an intact store a join finds one target for each row, and no two rows of
a project find targets of one name. So the record of a project has each of its rows once, each list
in its order (`keepsParts_projectOf`).
-/

namespace CatalogSearch.Store

variable {s : Store}

/-- The row of a project's category is shown by the name of the category. -/
def Names (s : Store) : ProjectCategoryRow → String → Prop :=
  Joins s.categories ProjectCategoryRow.categoryId CategoryRow.id fun _ c => c.name

/-- A link is shown by the name of its platform and its address. -/
def Links (s : Store) : LinkRow → String × String → Prop :=
  Joins s.linkPlatforms LinkRow.platformId LinkPlatformRow.id fun l p => (p.name, l.url)

/-- Nothing hangs on the project. -/
structure Childless (s : Store) (id : Int) : Prop where
  categories : ∀ c ∈ s.projectCategories, c.projectId ≠ id
  versions : ∀ v ∈ s.versions, v.projectId ≠ id
  gallery : ∀ g ∈ s.gallery, g.projectId ≠ id
  links : ∀ l ∈ s.links, l.projectId ≠ id

/-- The record has nothing that could hang on a project. -/
structure Bare (p : Project) : Prop where
  categories : p.categories = []
  additionalCategories : p.additionalCategories = []
  versionIds : p.versionIds = []
  galleryItems : p.galleryItems = []
  links : p.links = ∅
  projectTypes : p.projectTypes = []
  games : p.games = []

/-- The record of the project has each row that hangs on it once: categories in one of two lists by
name, versions from the oldest to the latest, images in their places and links by platform. -/
structure KeepsParts (s : Store) (id : Int) (p : Project) : Prop where
  categories :
    OneEach (s.projectCategories.filter fun c => c.projectId = id ∧ c.isAdditional = false)
      s.Names p.categories
  additionalCategories :
    OneEach (s.projectCategories.filter fun c => c.projectId = id ∧ c.isAdditional = true)
      s.Names p.additionalCategories
  increasing : p.categories.Pairwise (· < ·) ∧ p.additionalCategories.Pairwise (· < ·)
  disjoint : p.categories.Disjoint p.additionalCategories
  versionIds : InOrder (s.versions.filter fun v => v.projectId = id)
    (byKey VersionRow.published Moment.wallLe) VersionRow.id VersionRow.id p.versionIds
  nodup_versionIds : p.versionIds.Nodup
  galleryItems : InOrder (s.gallery.filter fun g => g.projectId = id)
    (byKey GalleryRow.ordering intLe) GalleryRow.id
    (fun g => {
      imageUrl := g.imageUrl, featured := g.featured, name := g.name, description := g.description,
      created := g.created, ordering := g.ordering }) p.galleryItems
  links : OneEach (s.links.filter fun l => l.projectId = id) s.Links p.links.entries
  bare : s.Childless id → Bare p

/-! ### Joined rows -/

theorem oneEach_categoriesOf (h : s.Intact) (id : Int) :
    OneEach (s.projectCategories.filter fun c => c.projectId = id)
      (Joins s.categories ProjectCategoryRow.categoryId CategoryRow.id fun pc c =>
        ⟨pc.projectId, c.name, pc.isAdditional⟩) (s.categoriesOf [id]) := by
  rw [categoriesOf, filter_contains_singleton]
  refine (oneEach_join (Keyed.nodup_categories h.keys) ?_ _).perm (sortBy_perm _ _).symm
  intro pc hpc
  exact h.category pc (List.mem_filter.1 hpc).1 _ rfl

theorem nodup_map_name_categoriesOf (h : s.Intact) (id : Int) :
    ((s.categoriesOf [id]).map CategoryOf.name).Nodup :=
  nodup_names_of_joins (oneEach_categoriesOf h id) (Keyed.nodup_categoriesOf h.keys id)
    (Keyed.nodup_categoryNames h.keys) fun _ _ => rfl

theorem oneEach_linksOf (h : s.Intact) (id : Int) :
    OneEach (s.links.filter fun l => l.projectId = id)
      (Joins s.linkPlatforms LinkRow.platformId LinkPlatformRow.id fun l p =>
        ⟨l.projectId, p.name, l.url⟩) (s.linksOf [id]) := by
  rw [linksOf, filter_contains_singleton]
  refine (oneEach_join (Keyed.nodup_linkPlatforms h.keys) ?_ _).perm (sortBy_perm _ _).symm
  intro l hl
  exact h.linkPlatform l (List.mem_filter.1 hl).1 _ rfl

theorem nodup_map_platform_linksOf (h : s.Intact) (id : Int) :
    ((s.linksOf [id]).map LinkOf.platform).Nodup :=
  nodup_names_of_joins (oneEach_linksOf h id) (Keyed.nodup_platformsOf h.keys id)
    (Keyed.nodup_platformNames h.keys) fun _ _ => rfl

/-! ### The parts of a record -/

/-- The names of the categories of a project that are additional, or of those that are not. -/
def categoryNames (s : Store) (id : Int) (additional : Bool) : List String :=
  ((s.categoriesOf [id]).filter fun c => c.isAdditional = additional).map CategoryOf.name

theorem oneEach_categoryNames (h : s.Intact) (id : Int) (additional : Bool) :
    OneEach (s.projectCategories.filter fun c => c.projectId = id ∧ c.isAdditional = additional)
      s.Names (s.categoryNames id additional) := by
  have hrows : (s.projectCategories.filter fun c => c.projectId = id).filter
      (fun c => c.isAdditional = additional) =
        s.projectCategories.filter fun c => c.projectId = id ∧ c.isAdditional = additional := by
    simp only [List.filter_filter, Bool.decide_and, Bool.and_comm]
  rw [categoryNames, ← hrows]
  apply OneEach.map
  · apply (oneEach_categoriesOf h id).filter
    rintro pc _ ⟨c, -, -, rfl⟩
    rfl
  · rintro pc _ ⟨c, hc, hid, rfl⟩
    exact ⟨c, hc, hid, rfl⟩

theorem pairwise_categoryNames (h : s.Intact) (id : Int) (additional : Bool) :
    (s.categoryNames id additional).Pairwise (· < ·) := by
  have hsub : (s.categoryNames id additional).Sublist ((s.categoriesOf [id]).map CategoryOf.name) :=
    List.filter_sublist.map _
  have hsorted : (s.categoriesOf [id]).Pairwise (byKey CategoryOf.name textLe · · = true) := by
    apply pairwise_next (pairwise_sortBy (.lexLe (.byInt _) (.byText _)) _)
    intro c hc
    exact List.mem_singleton.1 (s.local_categoriesOf.key_mem hc)
  apply pairwise_lt_of_nodup
  · exact (List.pairwise_map.2 hsorted).sublist hsub
  · exact (nodup_map_name_categoriesOf h id).sublist hsub

theorem disjoint_categoryNames (h : s.Intact) (id : Int) :
    (s.categoryNames id false).Disjoint (s.categoryNames id true) := by
  intro n hfirst hsecond
  obtain ⟨c, hc, rfl⟩ := List.mem_map.1 hfirst
  obtain ⟨c', hc', hname⟩ := List.mem_map.1 hsecond
  obtain ⟨hc, hmain⟩ := List.mem_filter.1 hc
  obtain ⟨hc', hadditional⟩ := List.mem_filter.1 hc'
  obtain rfl := List.inj_on_of_nodup_map (nodup_map_name_categoriesOf h id) hc' hc hname
  have hboth := (of_decide_eq_true hmain).symm.trans (of_decide_eq_true hadditional)
  exact Bool.false_ne_true hboth

/-! ### The record -/

theorem categories_projectOf (r : ProjectRow) :
    (s.projectOf r).categories = s.categoryNames r.id false := by
  simp [projectOf, Hydration.project, s.local_categoriesOf.filter_self, categoryNames]

theorem additionalCategories_projectOf (r : ProjectRow) :
    (s.projectOf r).additionalCategories = s.categoryNames r.id true := by
  simp [projectOf, Hydration.project, s.local_categoriesOf.filter_self, categoryNames]

theorem galleryItems_projectOf (r : ProjectRow) :
    (s.projectOf r).galleryItems = (s.galleryOf [r.id]).map Hydration.image := by
  rw [projectOf, Hydration.project, s.local_galleryOf.filter_self]

theorem entries_links_projectOf (h : s.Intact) (r : ProjectRow) :
    (s.projectOf r).links.entries = (s.linksOf [r.id]).map fun l => (l.platform, l.url) := by
  rw [projectOf, Hydration.project, s.local_linksOf.filter_self, OrderedMap.entries_ofList]
  rw [List.map_map]
  exact nodup_map_platform_linksOf h r.id

theorem projectTypes_projectOf (r : ProjectRow) : (s.projectOf r).projectTypes =
    Hydration.namesOf r.id (s.namesOfProjects s.projectTypeNames [r.id]) := rfl

theorem games_projectOf (r : ProjectRow) :
    (s.projectOf r).games = Hydration.namesOf r.id (s.namesOfProjects s.gameNames [r.id]) := rfl

theorem filter_contains_eq_nil {ρ : Type} {rows : List ρ} {key : ρ → Int} {id : Int}
    (h : ∀ r ∈ rows, key r ≠ id) : rows.filter (fun r => [id].contains (key r)) = [] := by
  rw [filter_contains_singleton]
  apply List.filter_eq_nil_iff.2
  intro r hr heq
  exact h r hr (of_decide_eq_true heq)

theorem bare_projectOf {r : ProjectRow} (h : s.Childless r.id) : Bare (s.projectOf r) := by
  have hcategories : s.categoriesOf [r.id] = [] := by
    rw [categoriesOf, filter_contains_eq_nil h.categories]
    rfl
  have hlinks : s.linksOf [r.id] = [] := by
    rw [linksOf, filter_contains_eq_nil h.links]
    rfl
  have hnames (names : Int → List String) : s.namesOfProjects names [r.id] = [] := by
    rw [namesOfProjects, filter_contains_eq_nil h.versions]
    rfl
  constructor
  · rw [categories_projectOf, categoryNames, hcategories]
    rfl
  · rw [additionalCategories_projectOf, categoryNames, hcategories]
    rfl
  · rw [versionIds_projectOf, versionsOfProjects, filter_contains_eq_nil h.versions]
    rfl
  · rw [galleryItems_projectOf, galleryOf, filter_contains_eq_nil h.gallery]
    rfl
  · rw [projectOf, Hydration.project, hlinks]
    rfl
  · rw [projectTypes_projectOf, hnames]
    rfl
  · rw [games_projectOf, hnames]
    rfl

/-- The record of a project has what hangs on it. -/
theorem keepsParts_projectOf (h : s.Intact) (r : ProjectRow) :
    s.KeepsParts r.id (s.projectOf r) where
  categories := categories_projectOf r ▸ oneEach_categoryNames h r.id false
  additionalCategories := additionalCategories_projectOf r ▸ oneEach_categoryNames h r.id true
  increasing := by
    rw [categories_projectOf, additionalCategories_projectOf]
    exact ⟨pairwise_categoryNames h r.id false, pairwise_categoryNames h r.id true⟩
  disjoint := by
    rw [categories_projectOf, additionalCategories_projectOf]
    exact disjoint_categoryNames h r.id
  versionIds := by
    rw [versionIds_projectOf, versionsOfProjects, filter_contains_singleton]
    apply inOrder_sortBy (totalPreorder_wallLe.byKey _)
    · intro v hv
      exact of_decide_eq_true (List.mem_filter.1 hv).2
    · exact h.nodup_versions.sublist (List.filter_sublist.map _)
  nodup_versionIds := by
    rw [versionIds_projectOf]
    exact nodup_map_sortBy.2 (h.nodup_versions.sublist (List.filter_sublist.map _))
  galleryItems := by
    rw [galleryItems_projectOf, galleryOf, filter_contains_singleton]
    apply inOrder_sortBy (.byInt _)
    · intro g hg
      exact of_decide_eq_true (List.mem_filter.1 hg).2
    · exact (Keyed.nodup_gallery h.keys).sublist (List.filter_sublist.map _)
  links := by
    rw [entries_links_projectOf h]
    apply (oneEach_linksOf h r.id).map
    rintro l _ ⟨p, hp, hid, rfl⟩
    exact ⟨p, hp, hid, rfl⟩
  bare := bare_projectOf

/-- Projects are hydrated with what hangs on them: whatever the batch, it has one record for each
project asked for. -/
theorem hydrated_keepsParts (h : s.Intact) (ids : List Int) :
    ∃ projects, Attempt.Yields s (Hydration.projects ids) (.ok projects) ∧
      OneEach (s.projects.filter fun r => r.id ∈ ids)
        (fun r p => p.id = r.id ∧ s.KeepsParts r.id p) projects :=
  exists_projects (fun r => ⟨rfl, keepsParts_projectOf h r⟩) ids

/-- A store with a project on which much hangs, in no order, and a draft on which nothing does. -/
def furnished : Store :=
  { sample with
    categories := [⟨1, "utility"⟩, ⟨2, "decoration"⟩, ⟨3, "worldgen"⟩, ⟨4, "adventure"⟩]
    projectCategories := [⟨100, 1, false⟩, ⟨101, 2, true⟩, ⟨100, 3, true⟩, ⟨100, 2, false⟩,
      ⟨100, 4, true⟩]
    gallery := [⟨4, 100, "late.png", false, none, none, .epoch, 1⟩,
      ⟨1, 100, "lamp.png", true, none, none, .epoch, 1⟩,
      ⟨3, 101, "cave.png", false, none, none, .epoch, 0⟩,
      ⟨2, 100, "early.png", false, none, none, .epoch, 0⟩]
    linkPlatforms := [⟨1, "source"⟩, ⟨2, "issues"⟩]
    links := [⟨100, 1, "git.example.org"⟩, ⟨101, 1, "svn.example.org"⟩,
      ⟨100, 2, "bugs.example.org"⟩]
    versions := [⟨7, 100, "Two", "1.1", "listed", ⟨⟨2020, 5, 1, by decide⟩, .midnight, none⟩⟩,
      ⟨11, 100, "Three", "1.2", "draft", ⟨⟨2020, 5, 1, by decide⟩, .midnight, none⟩⟩,
      ⟨9, 101, "One", "1.0", "listed", .epoch⟩, ⟨12, 100, "One", "1.0", "archived", .epoch⟩]
    versionLoaders := [⟨1, 7⟩, ⟨1, 9⟩] }

theorem intact_furnished : furnished.Intact := by
  constructor
  · intro t
    cases t <;> decide
  all_goals decide

theorem hydrated_keepsParts_furnished : furnished.Intact ∧
    ∃ projects, Attempt.Yields furnished (Hydration.projects [102, 5, 100, 101]) (.ok projects) ∧
      OneEach (furnished.projects.filter fun r => r.id ∈ [102, 5, 100, 101])
        (fun r p => p.id = r.id ∧ furnished.KeepsParts r.id p) projects :=
  ⟨intact_furnished, hydrated_keepsParts intact_furnished [102, 5, 100, 101]⟩

/-- Of versions of one day the one with the smaller id comes first. -/
example : (furnished.projectOf (sampleProject 100 10 none "approved")).versionIds =
    [12, 7, 11] := by
  decide

end CatalogSearch.Store
