import CatalogSearch.Proofs.Document.Assembly

/-!
# Faults of assembly

Assembly depends on the resolved versions alone, those visible versions whose two records were
loaded: it makes one document of each, in their order, and stops at the first that has a fault
(`errs_assemble`). A fault is a field of a list type that cannot be listed, or else a negative
number.

`Errs x fault?` tells of a computation which error it ends with, if any. It is composed along the
computation, so that the faults of a document come out in the order in which they are met.
-/

namespace CatalogSearch

/-! ### Errors -/

section Errs

variable {ε ε' α β : Type} {x : Except ε α} {f : α → Except ε β} {e? e?' : Option ε}

/-- The computation ends with the error, if there is one, and with a value otherwise. -/
def Errs (x : Except ε α) (e? : Option ε) : Prop := ∀ e, x = .error e ↔ e? = some e

theorem errs_ok (a : α) : Errs (.ok a : Except ε α) none := by
  intro e
  constructor <;> intro h <;> cases h

theorem errs_error (e : ε) : Errs (.error e : Except ε α) (some e) := by
  intro e'
  simp

theorem exists_errs (x : Except ε α) : ∃ e?, Errs x e? := by
  cases x with
  | error e => exact ⟨some e, errs_error e⟩
  | ok a => exact ⟨none, errs_ok a⟩

theorem Errs.eq_none {a : α} (h : Errs (.ok a) e?) : e? = none := by
  cases e? with
  | none => rfl
  | some e => cases (h e).2 rfl

theorem Errs.eq_some {e : ε} (h : Errs (.error e : Except ε α) e?) : e? = some e := (h e).1 rfl

theorem Errs.exists_ok (h : Errs x e?) : (∃ a, x = .ok a) ↔ e? = none := by
  cases x with
  | error e => rw [h.eq_some]; exact iff_of_false nofun nofun
  | ok a => exact iff_of_true ⟨a, rfl⟩ h.eq_none

/-- The second part counts only if the first one has no error. -/
theorem Errs.bind (hx : Errs x e?) (hf : ∀ a, Errs (f a) e?') : Errs (x >>= f) (e?.or e?') := by
  cases x with
  | error e => rw [hx.eq_some]; exact errs_error e
  | ok a => rw [hx.eq_none]; exact hf a

theorem Errs.bind_pure {f : α → β} (hx : Errs x e?) : Errs (x >>= fun a => pure (f a)) e? := by
  have h := hx.bind fun a => errs_ok (ε := ε) (f a)
  rwa [Option.or_none] at h

theorem Errs.map {f : α → β} (hx : Errs x e?) : Errs (x.map f) e? := by
  cases x with
  | error e => rw [hx.eq_some]; exact errs_error e
  | ok a => rw [hx.eq_none]; exact errs_ok (f a)

theorem Errs.mapError {f : ε → ε'} (hx : Errs x e?) : Errs (x.mapError f) (e?.map f) := by
  cases x with
  | error e => rw [hx.eq_some]; exact errs_error (f e)
  | ok a => rw [hx.eq_none]; exact errs_ok a

/-- Of a list the first element with an error counts. -/
theorem Errs.mapM {fault? : α → Option ε} (hf : ∀ a, Errs (f a) (fault? a)) (l : List α) :
    Errs (l.mapM f) (l.findSome? fault?) := by
  induction l with
  | nil => exact errs_ok []
  | cons a rest ih =>
    have hsome : (a :: rest).findSome? fault? = (fault? a).or (rest.findSome? fault?) := by
      rw [List.findSome?_cons]
      cases fault? a <;> rfl
    rw [List.mapM_cons, hsome]
    exact (hf a).bind fun b => ih.bind_pure

theorem mapM_eq_ok {l : List α} {l' : List β} :
    l.mapM f = .ok l' ↔ List.Forall₂ (fun a b => f a = .ok b) l l' := by
  induction l generalizing l' with
  | nil =>
    rw [List.mapM_nil, List.forall₂_nil_left_iff]
    constructor
    · intro h; cases h; rfl
    · rintro rfl; rfl
  | cons a rest ih =>
    rw [List.mapM_cons, bind_eq_ok, List.forall₂_cons_left_iff]
    refine exists_congr fun b => ?_
    rw [bind_eq_ok]
    constructor
    · rintro ⟨hb, bs, hbs, h⟩
      cases h
      exact ⟨bs, hb, ih.1 hbs, rfl⟩
    · rintro ⟨bs, hb, hbs, rfl⟩
      exact ⟨hb, bs, ih.2 hbs, rfl⟩

theorem mapM_eq_error {l : List α} {e : ε} : l.mapM f = .error e ↔
    ∃ l₁ a l₂, l = l₁ ++ a :: l₂ ∧ f a = .error e ∧ ∀ b ∈ l₁, ∃ c, f b = .ok c := by
  choose fault? hfault using fun a => exists_errs (f a)
  rw [Errs.mapM hfault l e, List.findSome?_eq_some_iff]
  simp only [hfault _ e, (hfault _).exists_ok]

end Errs

/-! ### Faults of records -/

/-- The kinds of values with elements. -/
def Json.HasElements : Json → Prop
  | .str _ => True
  | .arr _ => True
  | .obj _ => True
  | _ => False

namespace LoaderField

/-- The kind of the value of a field of a list type that is not empty and has no elements. -/
def unlistable? (f : LoaderField) : Option NotIterable :=
  if f.type.isArray && f.value.truthy then
    match f.value with
    | .bool _ => some .bool
    | .int _ => some .int
    | .float _ => some .float
    | _ => none
  else none

theorem errs_serialized (f : LoaderField) : Errs f.serialized f.unlistable? := by
  rw [serialized, unlistable?]
  by_cases harray : f.type.isArray = true
  · rw [if_pos harray, harray, Bool.true_and]
    refine Errs.map ?_
    unfold elements
    by_cases htruthy : f.value.truthy = true
    · rw [if_pos htruthy, if_pos htruthy]
      cases f.value with
      | null | str | arr | obj => exact errs_ok _
      | bool | int | float => exact errs_error _
    · rw [if_neg htruthy, if_neg htruthy]
      exact errs_ok []
  · rw [if_neg harray, Bool.eq_false_iff.2 harray]
    exact errs_ok _

theorem isSome_unlistable? {f : LoaderField} :
    f.unlistable?.isSome = true ↔
      f.type.isArray = true ∧ f.value.truthy = true ∧ ¬ f.value.HasElements := by
  rw [unlistable?]
  split
  · next h =>
    rw [Bool.and_eq_true] at h
    cases hv : f.value with
    | null => rw [hv] at h; simp [Json.truthy] at h
    | bool | int | float | str | arr | obj => simp [← hv, h, Json.HasElements]
  · next h =>
    rw [Bool.and_eq_true] at h
    refine iff_of_false nofun fun h' => h ⟨h'.1, h'.2.1⟩

end LoaderField

theorem FieldViews.errs_addFields (views : FieldViews) (fields : List LoaderField) :
    Errs (addFields views fields) (fields.findSome? LoaderField.unlistable?) := by
  induction fields generalizing views with
  | nil => exact errs_ok views
  | cons f rest ih =>
    have hf := f.errs_serialized
    rw [addFields, List.findSome?_cons]
    cases hs : f.serialized with
    | ok v =>
      rw [hs] at hf
      rw [hf.eq_none]
      exact ih _
    | error e =>
      rw [hs] at hf
      rw [hf.eq_some]
      exact errs_error e

theorem FieldViews.errs_reconcile (fields : List LoaderField) :
    Errs (reconcile fields) (fields.findSome? LoaderField.unlistable?) :=
  (errs_addFields empty fields).map

namespace Document

/-- The error of a number that has no public id. -/
def negative? (n : Int) : Option AssemblyError :=
  if n < 0 then some (.id (.negative n)) else none

theorem errs_publicId (n : Int) : Errs (publicId n) (negative? n) := by
  cases n with
  | ofNat n => rw [negative?, if_neg (by simp)]; exact errs_ok _
  | negSucc n => rw [negative?, if_pos (Int.negSucc_lt_zero n)]; exact errs_error _

theorem publicIds_eq_mapM (ns : List Int) : publicIds ns = ns.mapM publicId := by
  induction ns with
  | nil => rfl
  | cons n rest ih => rw [publicIds, List.mapM_cons, ih]

theorem errs_publicIds (ns : List Int) : Errs (publicIds ns) (ns.findSome? negative?) :=
  publicIds_eq_mapM ns ▸ Errs.mapM errs_publicId ns

theorem errs_publicId? (n? : Option Int) :
    Errs (publicId? n?) (n?.toList.findSome? negative?) := by
  cases n? with
  | none => exact errs_ok none
  | some n =>
    have hn : [n].findSome? negative? = negative? n := by simp
    rw [Option.toList_some, hn]
    exact (errs_publicId n).bind_pure

end Document

/-! ### Resolved versions -/

/-- A visible version with the two records that were loaded for it. -/
structure Resolved where
  project : Project
  version : Version
  owner : String

namespace Resolved

/-- The document of a resolved version. -/
def build (registry : License.Registry) (versions : OrderedMap Int Version) (r : Resolved) :
    Except AssemblyError Document :=
  Document.build registry versions r.project r.version r.owner

/-- The numbers that become public ids, in the order in which they do. -/
def numbers (r : Resolved) : List Int :=
  r.version.id :: r.project.id :: r.project.teamId ::
    (r.project.organizationId.toList ++ r.project.threadId :: r.project.versionIds)

/-- The fault of a resolved version: its first field that cannot be listed, or else its first
negative number. -/
def fault? (r : Resolved) : Option AssemblyError :=
  ((r.version.fields.findSome? LoaderField.unlistable?).map .field).or
    ((r.numbers.find? (· < 0)).map (.id ∘ .negative))

theorem findSome?_negative? (ns : List Int) :
    ns.findSome? Document.negative? = (ns.find? (· < 0)).map (.id ∘ .negative) := by
  induction ns with
  | nil => rfl
  | cons n rest ih =>
    rw [List.findSome?_cons, List.find?_cons, Document.negative?]
    by_cases hn : n < 0
    · simp [hn]
    · simp [hn, ih]

/-- A document is made of a resolved version unless it has a fault. -/
theorem errs_build (registry : License.Registry) (versions : OrderedMap Int Version)
    (r : Resolved) : Errs (r.build registry versions) r.fault? := by
  have hnumbers : r.numbers.findSome? Document.negative? =
      (Document.negative? r.version.id).or ((Document.negative? r.project.id).or
        ((Document.negative? r.project.teamId).or
          ((r.project.organizationId.toList.findSome? Document.negative?).or
            ((Document.negative? r.project.threadId).or
              (r.project.versionIds.findSome? Document.negative?))))) := by
    have hcons (n : Int) (ns : List Int) : (n :: ns).findSome? Document.negative? =
        (Document.negative? n).or (ns.findSome? Document.negative?) := by
      rw [List.findSome?_cons]
      cases Document.negative? n <;> rfl
    rw [numbers, hcons, hcons, hcons, List.findSome?_append, hcons]
  rw [fault?, ← findSome?_negative?, hnumbers, build, Document.build]
  refine (FieldViews.errs_reconcile _).mapError.bind fun views => ?_
  refine (Document.errs_publicId _).bind fun versionId => ?_
  refine (Document.errs_publicId _).bind fun projectId => ?_
  refine (Document.errs_publicId _).bind fun teamId => ?_
  refine (Document.errs_publicId? _).bind fun organizationId => ?_
  refine (Document.errs_publicId _).bind fun threadId => ?_
  exact (Document.errs_publicIds _).bind_pure

theorem isSome_fault? {r : Resolved} :
    r.fault?.isSome = true ↔
      (∃ f ∈ r.version.fields,
        f.type.isArray = true ∧ f.value.truthy = true ∧ ¬ f.value.HasElements) ∨
      ∃ n ∈ r.numbers, n < 0 := by
  rw [fault?, Option.isSome_or, Bool.or_eq_true, Option.isSome_map, Option.isSome_map,
    List.isSome_findSome?, List.any_eq_true, List.find?_isSome]
  simp only [LoaderField.isSome_unlistable?, decide_eq_true_eq]

end Resolved

namespace VisibleVersion

variable (versions : OrderedMap Int Version) (projects : OrderedMap Int Project)

/-- A visible version with its records, if both were loaded. -/
def resolve? (e : VisibleVersion) : Option Resolved :=
  (projects.find? e.projectId).bind fun project =>
    (versions.find? e.versionId).map fun version => ⟨project, version, e.owner⟩

variable {versions projects}

theorem resolve?_eq_some {e : VisibleVersion} {r : Resolved} :
    e.resolve? versions projects = some r ↔
      projects.find? e.projectId = some r.project ∧
        versions.find? e.versionId = some r.version ∧ e.owner = r.owner := by
  obtain ⟨project, version, owner⟩ := r
  simp only [resolve?, Option.bind_eq_some_iff, Option.map_eq_some_iff, Resolved.mk.injEq]
  constructor
  · rintro ⟨_, hp, _, hv, rfl, rfl, rfl⟩
    exact ⟨hp, hv, rfl⟩
  · rintro ⟨hp, hv, rfl⟩
    exact ⟨project, hp, version, hv, rfl, rfl, rfl⟩

end VisibleVersion

variable {registry : License.Registry} {versions : OrderedMap Int Version}
  {projects : OrderedMap Int Project}

theorem assemble_eq_mapM (visible : List VisibleVersion) :
    assemble registry versions projects visible =
      (visible.filterMap (·.resolve? versions projects)).mapM (·.build registry versions) := by
  induction visible with
  | nil => rfl
  | cons e rest ih =>
    rw [assemble, List.filterMap_cons, VisibleVersion.resolve?]
    cases projects.find? e.projectId with
    | none => exact ih
    | some project =>
      cases versions.find? e.versionId with
      | none => exact ih
      | some version =>
        simp only [Option.bind_some, Option.map_some, List.mapM_cons, ← ih]
        rfl

theorem assemble_eq_ok_iff {visible : List VisibleVersion} {documents : List Document} :
    assemble registry versions projects visible = .ok documents ↔
      List.Forall₂ (fun r d => Resolved.build registry versions r = .ok d)
        (visible.filterMap (·.resolve? versions projects)) documents := by
  rw [assemble_eq_mapM]
  exact mapM_eq_ok

theorem errs_assemble (registry : License.Registry) (versions : OrderedMap Int Version)
    (projects : OrderedMap Int Project) (visible : List VisibleVersion) :
    Errs (assemble registry versions projects visible)
      ((visible.filterMap (·.resolve? versions projects)).findSome? Resolved.fault?) :=
  assemble_eq_mapM visible ▸ Errs.mapM (Resolved.errs_build registry versions) _

end CatalogSearch
