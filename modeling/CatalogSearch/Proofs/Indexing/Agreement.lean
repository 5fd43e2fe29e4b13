import CatalogSearch.Proofs.Indexing.Documents

/-!
# Documents of one project agree

The documents of one project agree, so that it does not matter which of them search shows
(`documents_agree`). Their project records are one, their authors are those of one project, and what
else comes from versions is gathered from all versions of the project.
-/

namespace CatalogSearch

theorem Store.Shows.owner_eq {s : Store} (hs : s.Intact) {e e' : VisibleVersion} (h : s.Shows e)
    (h' : s.Shows e') (hp : e.projectId = e'.projectId) : e.owner = e'.owner := by
  obtain ⟨_, _, p, hmem, _, _, hid, hauthor⟩ := h
  obtain ⟨_, _, p', hmem', _, _, hid', hauthor'⟩ := h'
  obtain rfl : p = p' :=
    List.inj_on_of_nodup_map hs.nodup_projects hmem hmem' (hid.symm.trans (hp.trans hid'))
  exact hauthor.unique hs hauthor'

namespace Indexing

variable {s : Store} {settings : Settings} {registry : License.Registry}
  {documents : List Document} {d d' : Document} {size : Int} {versions : OrderedMap Int Version}
  {projects : OrderedMap Int Project}

theorem Found.project_id (h : Found s size versions projects) {id : Int} {p : Project}
    (hp : projects.find? id = some p) : p.id = id :=
  List.mem_singleton.1 (s.fetches_projects.isLocal.key_mem (h.findsProjects.mem hp).2)

/-- A document of the store comes from a visible version and the records found for it. -/
theorem Gathered.exists_build (h : Gathered s size registry documents versions projects)
    (hd : d ∈ documents) :
    ∃ e ∈ visibleVersions s.visibleRows, ∃ p v, projects.find? e.projectId = some p ∧
      Base62.encode e.projectId = .ok d.projectId ∧
        Document.build registry versions p v e.owner = .ok d := by
  obtain ⟨e, he, p, v, hp, _, hbuilt⟩ := exists_build_of_mem h.assembled hd
  have hid := (Document.madeOf_of_build hbuilt).projectId
  rw [h.project_id hp] at hid
  exact ⟨e, he, p, v, hp, hid, hbuilt⟩

/-- Two documents of one project are equal but for what belongs to their versions: the id of the
version, its categories, those shown of it, and its loader fields. -/
theorem documents_agree (hs : s.Intact)
    (h : Attempt.Yields s (run settings false registry) (.ok documents)) (hd : d ∈ documents)
    (hd' : d' ∈ documents) (hproject : d.projectId = d'.projectId) :
    d' = { d with
      versionId := d'.versionId
      categories := d'.categories
      displayCategories := d'.displayCategories
      loaderFields := d'.loaderFields } := by
  obtain ⟨-, versions, projects, hg⟩ := gathered_of_yields h
  obtain ⟨e, he, p, v, hp, hid, hbuilt⟩ := hg.exists_build hd
  obtain ⟨e', he', p', v', hp', hid', hbuilt'⟩ := hg.exists_build hd'
  have hsame : e.projectId = e'.projectId := Base62.encode_inj hid (hproject ▸ hid')
  have howner : e.owner = e'.owner :=
    Store.Shows.owner_eq hs ((Store.mem_visibleVersions hs).1 he)
      ((Store.mem_visibleVersions hs).1 he') hsame
  rw [← hsame, hp] at hp'
  cases hp'
  rw [← howner] at hbuilt'
  exact Document.build_agree hbuilt hbuilt'

/-- The documents of two versions of one project. -/
theorem documents_agree_sample :
    Store.sample.Intact ∧ ∃ documents,
      Attempt.Yields .sample (run .default false .sample) (.ok documents) ∧
        ∃ d ∈ documents, ∃ d' ∈ documents, d.versionId ≠ d'.versionId ∧
          d.projectId = d'.projectId ∧ d' = { d with
            versionId := d'.versionId
            categories := d'.categories
            displayCategories := d'.displayCategories
            loaderFields := d'.loaderFields } := by
  obtain ⟨documents, h, hids⟩ := Attempt.exists_yields_of_settled? (s := .sample)
    (a := run .default false .sample) (f := List.map fun d => (d.versionId, d.projectId))
    (b := [("9", "1d"), ("B", "1c"), ("7", "1c")]) (by decide +kernel)
  obtain ⟨d₁, rest, rfl, -, hids⟩ := List.map_eq_cons_iff.1 hids
  obtain ⟨d, rest, rfl, hid, hids⟩ := List.map_eq_cons_iff.1 hids
  obtain ⟨d', rest, rfl, hid', -⟩ := List.map_eq_cons_iff.1 hids
  obtain ⟨hv, hp⟩ := Prod.mk.inj hid
  obtain ⟨hv', hp'⟩ := Prod.mk.inj hid'
  have hd : d ∈ d₁ :: d :: d' :: rest := by simp
  have hd' : d' ∈ d₁ :: d :: d' :: rest := by simp
  have hsame : d.projectId = d'.projectId := hp.trans hp'.symm
  refine ⟨Store.intact_sample, _, h, d, hd, d', hd', ?_, hsame,
    documents_agree Store.intact_sample h hd hd' hsame⟩
  rw [hv, hv']
  decide

end Indexing

end CatalogSearch
