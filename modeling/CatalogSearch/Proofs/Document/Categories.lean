import CatalogSearch.Proofs.Document.Assembly
import CatalogSearch.Proofs.Document.LoaderFields
import CatalogSearch.Proofs.Record.RoundTrip

/-!
# Categories by records

The categories of a document by its records (`categorized_of_build`). Whether `mrpack` is dropped
depends on the name of a field alone, even of one without texts; what takes its place is collapsed
before values that are no texts are left out.
-/

namespace CatalogSearch

open LoaderField

namespace Categories

variable {categories additional cs : List String} {fields : OrderedMap String (List Json)}

theorem not_mem_withModpackLoaders (h : fields.find? "mrpack_loaders" ≠ none) :
    "mrpack" ∉ withModpackLoaders cs fields := by
  rw [withModpackLoaders]
  split
  · next hnone => exact absurd hnone h
  · simp

/-- But for `mrpack`, the categories stay where they are and more come after them. -/
theorem filter_prefix_withModpackLoaders (h : categories <+: cs) :
    categories.filter (· ≠ "mrpack") <+:
      (withModpackLoaders cs fields).filter (· ≠ "mrpack") := by
  refine (h.filter _).trans ?_
  rw [withModpackLoaders]
  split
  · exact List.prefix_rfl
  · rw [List.filter_filter, List.filter_append]
    simp only [Bool.and_self]
    exact List.prefix_append _ _

end Categories

namespace Document

variable {registry : License.Registry} {versions : OrderedMap Int Version} {project : Project}
  {version : Version} {owner : String} {d : Document}

/-- The categories of a document: those shown are of the project and its version's loaders, and
search filters by more of them. -/
structure Categorized (project : Project) (version : Version) (d : Document) : Prop where
  displayed : d.displayCategories = project.categories ++ version.loaders
  plain : "mrpack_loaders" ∉ version.fields.map (·.name) →
    d.categories = d.displayCategories ++ project.additionalCategories
  modpack : "mrpack_loaders" ∈ version.fields.map (·.name) →
    ∃ ws, Json.CollapsesTo ((named "mrpack_loaders" version.fields).flatMap values) ws ∧
      d.categories = (d.displayCategories ++ project.additionalCategories ++
        Categories.texts ws).filter (· ≠ "mrpack")
  without : "mrpack_loaders" ∈ version.fields.map (·.name) → "mrpack" ∉ d.categories
  shown_first :
    d.displayCategories.filter (· ≠ "mrpack") <+: d.categories.filter (· ≠ "mrpack")

theorem categorized_of_build (h : build registry versions project version owner = .ok d) :
    d.Categorized project version := by
  obtain ⟨views, hd⟩ := exists_builtFrom h
  have hkey : views.merged.find? "mrpack_loaders" = none ↔
      "mrpack_loaders" ∉ version.fields.map (·.name) := by
    rw [OrderedMap.find?_eq_none, (FieldViews.keys_reconcile hd.reconciled).1, mem_distinct]
  have hsearched : Categories.searched project.categories version.loaders
      project.additionalCategories = d.displayCategories ++ project.additionalCategories := by
    rw [hd.displayCategories]
    rfl
  have hcategories := hd.categories
  rw [hsearched] at hcategories
  exact {
    displayed := hd.displayCategories
    plain := fun hname => by rw [hcategories, Categories.withModpackLoaders, hkey.2 hname]
    modpack := fun hname => by
      obtain ⟨ws, hws⟩ := Option.ne_none_iff_exists'.1 fun hnone => hkey.1 hnone hname
      refine ⟨ws, FieldViews.collapsesTo_of_find?_merged hd.reconciled hws, ?_⟩
      rw [hcategories, Categories.withModpackLoaders, hws]
    without := fun hname => by
      rw [hcategories]
      exact Categories.not_mem_withModpackLoaders fun hnone => hkey.1 hnone hname
    shown_first := by
      rw [hcategories]
      exact Categories.filter_prefix_withModpackLoaders (List.prefix_append _ _) }

/-- A project that has `mrpack` among its categories of both kinds. -/
def sampleModpackProject : Project :=
  { sampleProject with
    categories := ["adventure", "mrpack"], additionalCategories := ["mrpack", "magic"] }

/-- A modpack with its loaders in fields of several types: a run of texts goes on from one field to
the next, and a number keeps two equal texts apart. -/
def sampleModpack : Version :=
  { sampleVersion with
    loaders := ["mrpack", "fabric"]
    fields := [⟨1, "mrpack_loaders", ⟨false, .enum⟩, .str "fabric"⟩,
      ⟨2, "players", ⟨false, .integer⟩, .int 4⟩,
      ⟨3, "mrpack_loaders", ⟨true, .enum⟩,
        .arr [.str "fabric", .str "quilt", .int 1, .str "quilt", .str "mrpack"]⟩,
      ⟨4, "mrpack_loaders", ⟨true, .text⟩, .arr []⟩] }

theorem categorized_sampleModpack :
    ∃ d, build .sample ∅ sampleModpackProject sampleModpack "ada" = .ok d ∧
      d.Categorized sampleModpackProject sampleModpack ∧
      d.displayCategories = ["adventure", "mrpack", "mrpack", "fabric"] ∧
      d.categories = ["adventure", "fabric", "magic", "fabric", "quilt", "quilt"] := by
  have hcategories : ((build .sample ∅ sampleModpackProject sampleModpack "ada").map fun d =>
      (d.displayCategories, d.categories)).toOption = some (
    ["adventure", "mrpack", "mrpack", "fabric"],
    ["adventure", "fabric", "magic", "fabric", "quilt", "quilt"]) := by decide +kernel
  obtain ⟨d, hd, hcategories⟩ := exists_of_toOption_map hcategories
  obtain ⟨hshown, hsearched⟩ := Prod.mk.inj hcategories
  exact ⟨d, hd, categorized_of_build hd, hshown, hsearched⟩

end Document

end CatalogSearch
