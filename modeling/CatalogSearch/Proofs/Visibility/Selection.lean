import CatalogSearch.Indexing
import CatalogSearch.Proofs.Service.Yields
import CatalogSearch.Proofs.Store.Intact

/-!
# The selection is exact

The selection of visible versions is exact (`yields_select_exact`). The rows of a version are all
pairs of an owner of the project's team and an owner of its organization's team, one of them missing
where there is none, and the first of the sorted rows pairs the least of both.
-/

namespace CatalogSearch

namespace Store

variable (s : Store)

/-- Whether a membership is that of an accepted owner of the team. -/
def TeamMemberRow.owns (m : TeamMemberRow) (teamId : Int) : Bool :=
  m.teamId = teamId && m.isOwner && m.accepted

/-- An accepted owner of the team has the name. -/
def OwnerNamed (teamId : Int) (name : String) : Prop :=
  ∃ m ∈ s.teamMembers, m.owns teamId ∧ ∃ u ∈ s.users, u.id = m.userId ∧ u.name = name

/-- The team has no accepted owner. -/
def Unowned (teamId : Int) : Prop := ∀ m ∈ s.teamMembers, ¬ m.owns teamId

/-- The name is the least one of accepted owners of the team. -/
def LeastOwner (teamId : Int) (name : String) : Prop :=
  s.OwnerNamed teamId name ∧ ∀ other, s.OwnerNamed teamId other → name ≤ other

/-- The author of a project: the least owner of its team, else the least owner of the team of its
organization, else nobody. -/
inductive Author (p : ProjectRow) : String → Prop where
  | team {name : String} : s.LeastOwner p.teamId name → Author p name
  | organization {o : OrganizationRow} {name : String} : s.Unowned p.teamId →
    o ∈ s.organizations → p.organizationId = some o.id → s.LeastOwner o.teamId name → Author p name
  | nobody : s.Unowned p.teamId →
    (∀ o ∈ s.organizations, p.organizationId = some o.id → s.Unowned o.teamId) → Author p ""

/-- The version is not hidden and is one of the project, which may be searched for. -/
def VersionRow.VisibleIn (v : VersionRow) (p : ProjectRow) : Prop :=
  v.status ∉ ["draft", "unlisted", "scheduled", "unknown"] ∧ p.id = v.projectId ∧
    (p.status = "approved" ∨ p.status = "archived")

/-- A visible version of a project, with the author of the project. -/
def Shows (e : VisibleVersion) : Prop :=
  ∃ v ∈ s.versions, ∃ p ∈ s.projects,
    v.VisibleIn p ∧ e.versionId = v.id ∧ e.projectId = p.id ∧ s.Author p e.owner

end Store

/-- Projects and, in a project, versions from the latest to the first. -/
def VisibleVersion.Before (a b : VisibleVersion) : Prop :=
  b.projectId < a.projectId ∨ b.projectId = a.projectId ∧ b.versionId < a.versionId

namespace Store

variable {s : Store}

/-! ### Owners -/

theorem some_mem_orMissing {α : Type} {a : α} {l : List α} : some a ∈ orMissing l ↔ a ∈ l := by
  cases l <;> simp [orMissing]

theorem none_mem_orMissing {α : Type} {l : List α} : none ∈ orMissing l ↔ l = [] := by
  cases l <;> simp [orMissing]

theorem orMissing_ne_nil {α : Type} (l : List α) : orMissing l ≠ [] := by
  cases l <;> simp [orMissing]

theorem mem_owners {m : TeamMemberRow} {teamId : Int} :
    m ∈ s.teamMembers.filter (fun m => m.teamId = teamId && m.isOwner && m.accepted) ↔
      m ∈ s.teamMembers ∧ m.owns teamId := List.mem_filter

theorem some_mem_ownerNames {teamId : Int} {name : String} :
    some name ∈ s.ownerNames teamId ↔ s.OwnerNamed teamId name := by
  simp only [ownerNames, List.mem_flatMap, OwnerNamed]
  constructor
  · rintro ⟨_ | m, hm, hname⟩
    · simp at hname
    · obtain ⟨hm, howns⟩ := mem_owners.1 (some_mem_orMissing.1 hm)
      obtain ⟨_ | u, hu, hname⟩ := List.mem_map.1 hname
      · cases hname
      · obtain ⟨hu, hid⟩ := List.mem_filter.1 (some_mem_orMissing.1 hu)
        exact ⟨m, hm, howns, u, hu, of_decide_eq_true hid, Option.some.inj hname⟩
  · rintro ⟨m, hm, howns, u, hu, hid, rfl⟩
    refine ⟨some m, some_mem_orMissing.2 (mem_owners.2 ⟨hm, howns⟩),
      List.mem_map.2 ⟨some u, ?_, rfl⟩⟩
    exact some_mem_orMissing.2 (List.mem_filter.2 ⟨hu, decide_eq_true hid⟩)

/-- An owner whose name is missing is no owner at all, as every member is a user. -/
theorem none_mem_ownerNames (h : s.Intact) {teamId : Int} :
    none ∈ s.ownerNames teamId ↔ s.Unowned teamId := by
  simp only [ownerNames, List.mem_flatMap]
  constructor
  · rintro ⟨_ | m, hm, hname⟩
    · exact List.filter_eq_nil_iff.1 (none_mem_orMissing.1 hm)
    · obtain ⟨hm, -⟩ := mem_owners.1 (some_mem_orMissing.1 hm)
      obtain ⟨u, hu, hid⟩ := List.mem_map.1 (h.memberUser m hm _ rfl)
      obtain ⟨_ | u', hu', hname⟩ := List.mem_map.1 hname
      · have hnil := List.filter_eq_nil_iff.1 (none_mem_orMissing.1 hu')
        exact absurd (decide_eq_true hid) (hnil u hu)
      · cases hname
  · intro hun
    exact ⟨none, none_mem_orMissing.2 (List.filter_eq_nil_iff.2 hun), by simp⟩

theorem some_mem_organizationOwnerNames {p : ProjectRow} {name : String} :
    some name ∈ s.organizationOwnerNames p ↔
      ∃ o ∈ s.organizations, p.organizationId = some o.id ∧ s.OwnerNamed o.teamId name := by
  simp only [organizationOwnerNames, List.mem_flatMap]
  constructor
  · rintro ⟨_ | o, ho, hname⟩
    · simp at hname
    · obtain ⟨ho, hid⟩ := List.mem_filter.1 (some_mem_orMissing.1 ho)
      exact ⟨o, ho, (of_decide_eq_true hid).symm, some_mem_ownerNames.1 hname⟩
  · rintro ⟨o, ho, hid, hname⟩
    exact ⟨some o, some_mem_orMissing.2 (List.mem_filter.2 ⟨ho, decide_eq_true hid.symm⟩),
      some_mem_ownerNames.2 hname⟩

theorem eq_of_organizationId (h : s.Intact) {p : ProjectRow} {o o' : OrganizationRow}
    (ho : o ∈ s.organizations) (ho' : o' ∈ s.organizations) (hid : p.organizationId = some o.id)
    (hid' : p.organizationId = some o'.id) : o = o' :=
  List.inj_on_of_nodup_map h.nodup_organizations ho ho' (Option.some.inj (hid.symm.trans hid'))

theorem none_mem_organizationOwnerNames (h : s.Intact) {p : ProjectRow} :
    none ∈ s.organizationOwnerNames p ↔
      ∀ o ∈ s.organizations, p.organizationId = some o.id → s.Unowned o.teamId := by
  simp only [organizationOwnerNames, List.mem_flatMap]
  constructor
  · rintro ⟨_ | o, ho, hname⟩ o' ho' hid'
    · have hnil := List.filter_eq_nil_iff.1 (none_mem_orMissing.1 ho)
      exact absurd (decide_eq_true hid'.symm) (hnil o' ho')
    · obtain ⟨ho, hid⟩ := List.mem_filter.1 (some_mem_orMissing.1 ho)
      rw [eq_of_organizationId h ho' ho hid' (of_decide_eq_true hid).symm]
      exact (none_mem_ownerNames h).1 hname
  · intro hun
    cases ho : s.organizations.filter fun o => some o.id = p.organizationId with
    | nil => exact ⟨none, by simp [orMissing], by simp⟩
    | cons o rest =>
      obtain ⟨hmem, hid⟩ := List.mem_filter.1 (ho ▸ List.mem_cons_self (a := o) (l := rest))
      exact ⟨some o, some_mem_orMissing.2 List.mem_cons_self,
        (none_mem_ownerNames h).2 (hun o hmem (of_decide_eq_true hid).symm)⟩

theorem ownerNames_ne_nil (teamId : Int) : s.ownerNames teamId ≠ [] := by
  obtain ⟨m, hm⟩ := List.exists_mem_of_ne_nil _ (orMissing_ne_nil
    (s.teamMembers.filter fun m => m.teamId = teamId && m.isOwner && m.accepted))
  refine fun h => absurd (List.flatMap_eq_nil_iff.1 h m hm) ?_
  cases m with
  | none => exact List.cons_ne_nil _ _
  | some m => exact fun h => orMissing_ne_nil _ (List.map_eq_nil_iff.1 h)

theorem organizationOwnerNames_ne_nil (p : ProjectRow) : s.organizationOwnerNames p ≠ [] := by
  obtain ⟨o, ho⟩ := List.exists_mem_of_ne_nil _ (orMissing_ne_nil
    (s.organizations.filter fun o => some o.id = p.organizationId))
  refine fun h => absurd (List.flatMap_eq_nil_iff.1 h o ho) ?_
  cases o with
  | none => exact List.cons_ne_nil _ _
  | some o => exact ownerNames_ne_nil o.teamId

/-! ### Authors -/

theorem LeastOwner.unique {teamId : Int} {a b : String} (ha : s.LeastOwner teamId a)
    (hb : s.LeastOwner teamId b) : a = b :=
  String.le_antisymm (ha.2 b hb.1) (hb.2 a ha.1)

theorem LeastOwner.not_unowned {teamId : Int} {name : String} (h : s.LeastOwner teamId name) :
    ¬ s.Unowned teamId := by
  obtain ⟨⟨m, hm, howns, -⟩, -⟩ := h
  exact fun hun => hun m hm howns

theorem Author.unique (h : s.Intact) {p : ProjectRow} {a b : String} (ha : s.Author p a)
    (hb : s.Author p b) : a = b := by
  cases ha with
  | team ha =>
    cases hb with
    | team hb => exact ha.unique hb
    | organization hun | nobody hun => exact absurd hun ha.not_unowned
  | organization hun ho hid ha =>
    cases hb with
    | team hb => exact absurd hun hb.not_unowned
    | organization _ ho' hid' hb =>
      rw [eq_of_organizationId h ho' ho hid' hid] at hb
      exact ha.unique hb
    | nobody _ hnone => exact absurd (hnone _ ho hid) ha.not_unowned
  | nobody hun hnone =>
    cases hb with
    | team hb => exact absurd hun hb.not_unowned
    | organization _ ho hid hb => exact absurd (hnone _ ho hid) hb.not_unowned
    | nobody => rfl

/-- The least owners of both teams, where a missing one comes first, resolve to the author. -/
theorem author_resolveOwner (h : s.Intact) {p : ProjectRow} {t o : Option String}
    (ht : t ∈ s.ownerNames p.teamId)
    (hleast : ∀ t' ∈ s.ownerNames p.teamId, absentFirst textLe t t' = true)
    (ho : o ∈ s.organizationOwnerNames p)
    (holeast : ∀ o' ∈ s.organizationOwnerNames p, absentFirst textLe o o' = true) :
    s.Author p (resolveOwner t o) := by
  cases t with
  | some name =>
    refine .team ⟨some_mem_ownerNames.1 ht, fun other hother => ?_⟩
    exact textLe_eq_true.1 (hleast _ (some_mem_ownerNames.2 hother))
  | none =>
    have hun := (none_mem_ownerNames h).1 ht
    cases o with
    | some name =>
      obtain ⟨org, horg, hid, hname⟩ := some_mem_organizationOwnerNames.1 ho
      refine .organization hun horg hid ⟨hname, fun other hother => ?_⟩
      exact textLe_eq_true.1
        (holeast _ (some_mem_organizationOwnerNames.2 ⟨org, horg, hid, hother⟩))
    | none => exact .nobody hun ((none_mem_organizationOwnerNames h).1 ho)

/-! ### Rows -/

theorem isListed_iff {v : VersionRow} :
    v.isListed = true ↔ v.status ∉ ["draft", "unlisted", "scheduled", "unknown"] := by
  have hhidden : VersionStatus.hidden = ["draft", "unlisted", "scheduled", "unknown"] := by decide
  rw [VersionRow.isListed, hhidden, Bool.not_eq_true', ← Bool.not_eq_true, List.contains_iff_mem]

theorem isSearchable_iff {p : ProjectRow} :
    p.isSearchable = true ↔ p.status = "approved" ∨ p.status = "archived" := by
  have hsearchable : ProjectStatus.searchable = ["approved", "archived"] := by decide
  rw [ProjectRow.isSearchable, hsearchable, List.contains_iff_mem]
  simp

theorem mem_visibleRows {r : OwnerRow} :
    r ∈ s.visibleRows ↔
      ∃ v ∈ s.versions, ∃ p ∈ s.projects, v.VisibleIn p ∧ r.versionId = v.id ∧ r.projectId = p.id ∧
        r.teamOwner ∈ s.ownerNames p.teamId ∧ r.organizationOwner ∈ s.organizationOwnerNames p := by
  simp only [visibleRows, ownerRows, mem_sortBy, mem_distinct, List.mem_flatMap, List.mem_filter,
    List.mem_map, Bool.and_eq_true, decide_eq_true_eq, isListed_iff, isSearchable_iff]
  constructor
  · rintro ⟨v, ⟨hv, hlisted⟩, p, ⟨hp, hid, hsearchable⟩, t, ht, o, ho, rfl⟩
    exact ⟨v, hv, p, hp, ⟨hlisted, hid, hsearchable⟩, rfl, rfl, ht, ho⟩
  · rintro ⟨v, hv, p, hp, ⟨hlisted, hid, hsearchable⟩, hrv, hrp, ht, ho⟩
    refine ⟨v, ⟨hv, hlisted⟩, p, ⟨hp, hid, hsearchable⟩, _, ht, _, ho, ?_⟩
    rw [← hrv, ← hrp]

theorem totalPreorder_ownerRowLe : TotalPreorder ownerRowLe :=
  .lexLe (TotalPreorder.intLe.descending.byKey _) <|
  .lexLe (TotalPreorder.intLe.descending.byKey _) <|
  .lexLe (TotalPreorder.textLe.absentFirst.byKey _) (TotalPreorder.textLe.absentFirst.byKey _)

/-- Two rows of one version are in the order of their owners. -/
theorem ownerRowLe_of_same {v p : Int} {t t' o o' : Option String} :
    ownerRowLe ⟨v, p, t, o⟩ ⟨v, p, t', o'⟩ = true ↔
      absentFirst textLe t t' = true ∧
        (absentFirst textLe t' t = true → absentFirst textLe o o' = true) := by
  simp [ownerRowLe, lexLe_eq_true, byKey, descending, intLe]

/-- The first row of a version shows it. -/
theorem shows_visible (h : s.Intact) {r : OwnerRow}
    (hr : r ∈ distinctBy OwnerRow.versionId s.visibleRows) : s.Shows r.visible := by
  obtain ⟨v, hv, p, hp, hvisible, hrv, hrp, ht, ho⟩ :=
    mem_visibleRows.1 ((distinctBy_sublist OwnerRow.versionId _).subset hr)
  -- The rows of a version pair each owner of the team with each one of the organization.
  have hleast {t o : Option String} (ht : t ∈ s.ownerNames p.teamId)
      (ho : o ∈ s.organizationOwnerNames p) :
      ownerRowLe r ⟨r.versionId, r.projectId, t, o⟩ = true :=
    le_of_mem_distinctBy totalPreorder_ownerRowLe (pairwise_sortBy totalPreorder_ownerRowLe _) hr
      (mem_visibleRows.2 ⟨v, hv, p, hp, hvisible, hrv, hrp, ht, ho⟩) rfl
  refine ⟨v, hv, p, hp, hvisible, hrv, hrp,
    author_resolveOwner h ht (fun t' ht' => ?_) ho fun o' ho' => ?_⟩
  · exact (ownerRowLe_of_same.1 (hleast ht' ho)).1
  · exact (ownerRowLe_of_same.1 (hleast ht ho')).2
      (TotalPreorder.textLe.absentFirst.refl r.teamOwner)

theorem exists_visible_of_mem {e : VisibleVersion} (he : e ∈ visibleVersions s.visibleRows) :
    ∃ v ∈ s.versions, ∃ p ∈ s.projects, v.VisibleIn p ∧ v.id = e.versionId ∧
      v.projectId = e.projectId := by
  obtain ⟨r, hr, rfl⟩ := List.mem_map.1 he
  obtain ⟨v, hv, p, hp, hvisible, hrv, hrp, -⟩ :=
    mem_visibleRows.1 ((distinctBy_sublist OwnerRow.versionId _).subset hr)
  exact ⟨v, hv, p, hp, hvisible, hrv.symm, hvisible.2.1.symm.trans hrp.symm⟩

theorem exists_mem_visibleVersions {v : VersionRow} {p : ProjectRow} (hv : v ∈ s.versions)
    (hp : p ∈ s.projects) (hvisible : v.VisibleIn p) :
    ∃ e ∈ visibleVersions s.visibleRows, e.versionId = v.id := by
  obtain ⟨t, ht⟩ := List.exists_mem_of_ne_nil _ (s.ownerNames_ne_nil p.teamId)
  obtain ⟨o, ho⟩ := List.exists_mem_of_ne_nil _ (s.organizationOwnerNames_ne_nil p)
  have hrow : (⟨v.id, p.id, t, o⟩ : OwnerRow) ∈ s.visibleRows :=
    mem_visibleRows.2 ⟨v, hv, p, hp, hvisible, rfl, rfl, ht, ho⟩
  obtain ⟨r, hr, hrv⟩ := List.mem_map.1
    (mem_map_distinctBy.2 (List.mem_map_of_mem (f := OwnerRow.versionId) hrow))
  exact ⟨r.visible, List.mem_map_of_mem hr, hrv⟩

theorem mem_visibleVersions (h : s.Intact) {e : VisibleVersion} :
    e ∈ visibleVersions s.visibleRows ↔ s.Shows e := by
  have hshows {e : VisibleVersion} (he : e ∈ visibleVersions s.visibleRows) : s.Shows e := by
    obtain ⟨r, hr, rfl⟩ := List.mem_map.1 he
    exact shows_visible h hr
  refine ⟨hshows, ?_⟩
  rintro ⟨v, hv, p, hp, hvisible, hev, hep, hauthor⟩
  obtain ⟨e', he', hev'⟩ := exists_mem_visibleVersions hv hp hvisible
  obtain ⟨v', hv', p', hp', hvisible', hev'', hep', hauthor'⟩ := hshows he'
  obtain rfl : v' = v := List.inj_on_of_nodup_map h.nodup_versions hv' hv (hev''.symm.trans hev')
  obtain rfl : p' = p :=
    List.inj_on_of_nodup_map h.nodup_projects hp' hp (hvisible'.2.1.trans hvisible.2.1.symm)
  have heq : e = e' := by
    obtain ⟨ev, ep, eo⟩ := e
    obtain ⟨ev', ep', eo'⟩ := e'
    exact VisibleVersion.mk.injEq .. ▸
      ⟨hev.trans hev'.symm, hep.trans hep'.symm, hauthor.unique h hauthor'⟩
  exact heq ▸ he'

theorem nodup_versionId (s : Store) :
    ((visibleVersions s.visibleRows).map VisibleVersion.versionId).Nodup := by
  rw [visibleVersions, List.map_map]
  exact nodup_map_distinctBy OwnerRow.versionId s.visibleRows

theorem pairwise_before (s : Store) :
    (visibleVersions s.visibleRows).Pairwise VisibleVersion.Before := by
  have hsorted := (pairwise_sortBy totalPreorder_ownerRowLe _).sublist
    (distinctBy_sublist OwnerRow.versionId s.visibleRows)
  have hne := List.pairwise_map.1 (nodup_map_distinctBy OwnerRow.versionId s.visibleRows)
  refine List.pairwise_map.2 ((hsorted.and hne).imp ?_)
  rintro a b ⟨hle, hne⟩
  simp only [ownerRowLe, lexLe_eq_true, byKey, descending, intLe, decide_eq_true_eq] at hle
  simp only [VisibleVersion.Before, OwnerRow.visible]
  omega

end Store

namespace Indexing

theorem yields_select {s : Store} {l : List VisibleVersion} :
    Attempt.Yields s select (.ok l) ↔ visibleVersions s.visibleRows = l := by
  refine Attempt.yields_bind.trans ⟨?_, fun h => ⟨_, ?_, Attempt.yields_pure.2 h⟩⟩
  · rintro ⟨rows, hrows, hl⟩
    cases Attempt.yields_askStore.1 (Attempt.yields_withError_ok.1 hrows)
    exact Attempt.yields_pure.1 hl
  · exact Attempt.yields_withError_ok.2 (Attempt.yields_askStore.2 rfl)

/-- Selecting from an intact store gives one entity for each visible version, with the author of
its project, and nothing else; projects and versions come from the latest to the first. -/
theorem yields_select_exact {s : Store} (h : s.Intact) :
    ∃ l, Attempt.Yields s select (.ok l) ∧
      (∀ v ∈ s.versions, ∀ p ∈ s.projects, v.VisibleIn p → ∃! e, e ∈ l ∧ e.versionId = v.id) ∧
      (∀ e, e ∈ l ↔ s.Shows e) ∧ l.Pairwise VisibleVersion.Before := by
  refine ⟨_, yields_select.2 rfl, fun v hv p hp hvisible => ?_,
    fun e => Store.mem_visibleVersions h, s.pairwise_before⟩
  obtain ⟨e, he, hev⟩ := Store.exists_mem_visibleVersions hv hp hvisible
  refine ⟨e, ⟨he, hev⟩, fun e' ⟨he', hev'⟩ => ?_⟩
  exact List.inj_on_of_nodup_map s.nodup_versionId he' he (hev'.trans hev.symm)

theorem yields_select_sample :
    Store.sample.Intact ∧ ∃ l, Attempt.Yields .sample select (.ok l) ∧
      (∀ e, e ∈ l ↔ Store.sample.Shows e) ∧ l.Pairwise VisibleVersion.Before ∧
        l = [⟨9, 101, "cy"⟩, ⟨11, 100, "ann"⟩, ⟨7, 100, "ann"⟩] := by
  obtain ⟨l, hl, -, hshows, hbefore⟩ := yields_select_exact Store.intact_sample
  refine ⟨Store.intact_sample, l, hl, hshows, hbefore, ?_⟩
  rw [← yields_select.1 hl]
  decide

end Indexing

end CatalogSearch
