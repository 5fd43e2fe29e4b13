import CatalogSearch.Document.LoaderFields
import CatalogSearch.Proofs.Data.OrderedMap
import CatalogSearch.Proofs.Document.Collapse
import CatalogSearch.Proofs.Document.Presentable

/-!
# Views of loader fields

Each name has the values of all its fields in one list, collapsed at the end, and the value of its
last field as it is. So a view depends on the order of the fields of one name alone
(`reconcile_exact`).
-/

namespace CatalogSearch

namespace LoaderField

/-- The fields of a name, in their order. -/
def named (name : String) (fields : List LoaderField) : List LoaderField :=
  fields.filter (·.name = name)

/-- What a field adds to the values of its name: the elements of a list, any other value itself, and
nothing if it cannot be serialized. -/
def values (f : LoaderField) : List Json :=
  match f.serialized with
  | .ok (.arr vs) => vs
  | .ok v => [v]
  | .error _ => []

variable {f : LoaderField} {fields : List LoaderField} {name : String}

theorem values_eq {v : Json} (h : f.serialized = .ok v) : f.values = FieldViews.contribution v := by
  rw [values, h]
  cases v <;> rfl

theorem named_cons_of_eq (h : f.name = name) : named name (f :: fields) = f :: named name fields :=
  List.filter_cons_of_pos (decide_eq_true h)

theorem named_cons_of_ne (h : f.name ≠ name) : named name (f :: fields) = named name fields :=
  List.filter_cons_of_neg (by simpa using h)

theorem mem_named : f ∈ named name fields ↔ f ∈ fields ∧ f.name = name := by
  rw [named, List.mem_filter, decide_eq_true_eq]

theorem named_eq_nil : named name fields = [] ↔ name ∉ fields.map (·.name) := by
  rw [List.eq_nil_iff_forall_not_mem, List.mem_map]
  simp only [mem_named, not_exists]

end LoaderField

open LoaderField

namespace FieldViews

variable {views views' : FieldViews} {fields fields' : List LoaderField}

/-! ### Adding fields -/

theorem addFields_cons_eq_ok {f : LoaderField} :
    addFields views (f :: fields) = .ok views' ↔
      ∃ v, f.serialized = .ok v ∧ addFields (views.add f.name v) fields = .ok views' := by
  rw [addFields]
  cases f.serialized with
  | error e => simp
  | ok v => simp

theorem serialized_of_addFields (h : addFields views fields = .ok views') :
    ∀ f ∈ fields, ∃ v, f.serialized = .ok v := by
  induction fields generalizing views with
  | nil => exact nofun
  | cons f rest ih =>
    obtain ⟨v, hv, h⟩ := addFields_cons_eq_ok.1 h
    exact List.forall_mem_cons.2 ⟨⟨v, hv⟩, ih h⟩

/-- Both views have the same keys, those of new names in the order in which these come. -/
theorem keys_addFields (h : addFields views fields = .ok views') :
    views'.merged.keys = distinct (views.merged.keys ++ fields.map (·.name)) ∧
      views'.raw.keys = distinct (views.raw.keys ++ fields.map (·.name)) := by
  induction fields generalizing views with
  | nil =>
    obtain rfl : views = views' := Except.ok.inj h
    rw [List.map_nil, List.append_nil, List.append_nil]
    exact ⟨(distinct_of_nodup views.merged.nodup_keys).symm,
      (distinct_of_nodup views.raw.nodup_keys).symm⟩
  | cons f rest ih =>
    obtain ⟨v, -, h⟩ := addFields_cons_eq_ok.1 h
    rw [(ih h).1, (ih h).2, add, OrderedMap.keys_insert_eq_distinct,
      OrderedMap.keys_insert_eq_distinct, distinct_distinct_append, distinct_distinct_append,
      List.append_assoc, List.append_assoc]
    exact ⟨rfl, rfl⟩

/-- What is merged under a name gets longer by the values of its fields. -/
theorem find?_merged_addFields (h : addFields views fields = .ok views') (name : String) :
    (views'.merged.find? name).getD [] =
      (views.merged.find? name).getD [] ++ (named name fields).flatMap values := by
  induction fields generalizing views with
  | nil => cases h; exact (List.append_nil _).symm
  | cons f rest ih =>
    obtain ⟨v, hv, h⟩ := addFields_cons_eq_ok.1 h
    rw [ih h, add, OrderedMap.find?_insert]
    by_cases hname : f.name = name
    · rw [if_pos hname, named_cons_of_eq hname, List.flatMap_cons, values_eq hv, hname,
        ← List.append_assoc]
      rfl
    · rw [if_neg hname, named_cons_of_ne hname]

/-- The value of the last field of a name counts. -/
theorem find?_raw_addFields (h : addFields views fields = .ok views') (name : String) :
    views'.raw.find? name =
      ((named name fields).getLast?.bind (·.serialized.toOption)).or (views.raw.find? name) := by
  induction fields generalizing views with
  | nil => cases h; rfl
  | cons f rest ih =>
    obtain ⟨v, hv, h⟩ := addFields_cons_eq_ok.1 h
    rw [ih h, add, OrderedMap.find?_insert]
    by_cases hname : f.name = name
    · rw [if_pos hname, named_cons_of_eq hname, List.getLast?_cons]
      cases hlast : (named name rest).getLast? with
      | none => simp [hv, Except.toOption]
      | some g =>
        have hg := (mem_named.1 (List.mem_of_getLast? hlast)).1
        obtain ⟨w, hw⟩ := serialized_of_addFields h g hg
        simp [hw, Except.toOption]
    · rw [if_neg hname, named_cons_of_ne hname]

/-! ### Both views -/

theorem reconcile_eq_ok : reconcile fields = .ok views ↔
    ∃ added, addFields empty fields = .ok added ∧
      views = { added with merged := added.merged.mapValues Json.collapse } := by
  rw [reconcile]
  cases addFields empty fields with
  | error e => simp [Except.map]
  | ok added => simp [Except.map, eq_comm]

theorem keys_reconcile (h : reconcile fields = .ok views) :
    views.merged.keys = distinct (fields.map (·.name)) ∧
      views.raw.keys = distinct (fields.map (·.name)) := by
  obtain ⟨added, hadded, rfl⟩ := reconcile_eq_ok.1 h
  rw [OrderedMap.keys_mapValues]
  exact keys_addFields hadded

theorem find?_merged (h : reconcile fields = .ok views) (name : String) :
    views.merged.find? name =
      if named name fields = [] then none
      else some (Json.collapse ((named name fields).flatMap values)) := by
  have hmem : views.merged.find? name = none ↔ named name fields = [] := by
    rw [OrderedMap.find?_eq_none, (keys_reconcile h).1, mem_distinct, named_eq_nil]
  split
  · next hnil => exact hmem.2 hnil
  · next hnil =>
    obtain ⟨added, hadded, rfl⟩ := reconcile_eq_ok.1 h
    have hvalues := find?_merged_addFields hadded name
    rw [OrderedMap.find?_mapValues] at hmem ⊢
    cases hfind : added.merged.find? name with
    | none => exact absurd (hmem.1 (congrArg _ hfind)) hnil
    | some vs =>
      rw [hfind] at hvalues
      exact congrArg (some ∘ Json.collapse) hvalues

theorem find?_raw (h : reconcile fields = .ok views) (name : String) :
    views.raw.find? name = (named name fields).getLast?.bind (·.serialized.toOption) := by
  obtain ⟨added, hadded, rfl⟩ := reconcile_eq_ok.1 h
  exact (find?_raw_addFields hadded name).trans (Option.or_none)

theorem serialized_of_reconcile (h : reconcile fields = .ok views) :
    ∀ f ∈ fields, ∃ v, f.serialized = .ok v := by
  obtain ⟨added, hadded, rfl⟩ := reconcile_eq_ok.1 h
  exact serialized_of_addFields hadded

theorem exists_reconcile :
    (∃ views, reconcile fields = .ok views) ↔ ∀ f ∈ fields, f.Presentable := by
  rw [(errs_reconcile fields).exists_ok, List.findSome?_eq_none_iff]
  simp only [unlistable?_eq_none]

/-- What the views of fields are: of each name all values of its fields, where of neighbours with
one text only the first is left, and the value of its last field. -/
structure Reconciles (fields : List LoaderField) (views : FieldViews) : Prop where
  serialized : ∀ f ∈ fields, ∃ v, f.serialized = .ok v
  keys_merged : views.merged.keys = distinct (fields.map (·.name))
  keys_raw : views.raw.keys = distinct (fields.map (·.name))
  merged : ∀ name ∈ fields.map (·.name), ∃ ws, views.merged.find? name = some ws ∧
    Json.CollapsesTo ((named name fields).flatMap values) ws
  differ : ∀ name ws, views.merged.find? name = some ws →
    ws.IsChain fun v w => v.canonicalText ≠ w.canonicalText
  keeps : ∀ name ws, views.merged.find? name = some ws →
    ∀ f ∈ named name fields, ∀ v ∈ f.values, ∃ w ∈ ws, v.canonicalText = w.canonicalText
  raw : ∀ name f, (named name fields).getLast? = some f →
    ∃ v, f.serialized = .ok v ∧ views.raw.find? name = some v

theorem collapsesTo_of_find?_merged (h : reconcile fields = .ok views) {name : String}
    {ws : List Json} (hws : views.merged.find? name = some ws) :
    Json.CollapsesTo ((named name fields).flatMap values) ws := by
  rw [find?_merged h] at hws
  split at hws
  · cases hws
  · cases hws
    exact Json.collapsesTo_collapse _

theorem reconciles (h : reconcile fields = .ok views) : Reconciles fields views where
  serialized := serialized_of_reconcile h
  keys_merged := (keys_reconcile h).1
  keys_raw := (keys_reconcile h).2
  merged name hname := by
    have hfind := find?_merged h name
    rw [if_neg fun hnil => named_eq_nil.1 hnil hname] at hfind
    exact ⟨_, hfind, Json.collapsesTo_collapse _⟩
  differ _ _ hws := (collapsesTo_of_find?_merged h hws).isChain
  keeps _ _ hws f hf v hv :=
    (collapsesTo_of_find?_merged h hws).exists_of_mem (List.mem_flatMap.2 ⟨f, hf, hv⟩)
  raw name f hlast := by
    have hmem := (mem_named.1 (List.mem_of_getLast? hlast)).1
    obtain ⟨v, hv⟩ := serialized_of_reconcile h f hmem
    refine ⟨v, hv, ?_⟩
    rw [find?_raw h, hlast, Option.bind_some, hv]
    rfl

/-- Fields that are the same for each name are the same fields in another order. -/
theorem mem_iff_of_named_eq (h : ∀ name, named name fields' = named name fields) {f : LoaderField} :
    f ∈ fields' ↔ f ∈ fields := by
  have hnamed : f ∈ named f.name fields' ↔ f ∈ named f.name fields := by rw [h]
  simpa only [mem_named, and_true] using hnamed

/-- The views of a list of fields have what belongs to each name, and no order but that of the
fields of one name counts for their values. -/
theorem reconcile_exact (h : reconcile fields = .ok views) :
    Reconciles fields views ∧ ∀ fields', (∀ name, named name fields' = named name fields) →
      ∃ views', reconcile fields' = .ok views' ∧ ∀ name,
        views'.merged.find? name = views.merged.find? name ∧
          views'.raw.find? name = views.raw.find? name := by
  refine ⟨reconciles h, fun fields' hfields => ?_⟩
  obtain ⟨views', h'⟩ : ∃ views', reconcile fields' = .ok views' := by
    have hpresentable := exists_reconcile.1 ⟨views, h⟩
    exact exists_reconcile.2 fun f hf => hpresentable f ((mem_iff_of_named_eq hfields).1 hf)
  refine ⟨views', h', fun name => ⟨?_, ?_⟩⟩
  · rw [find?_merged h, find?_merged h', hfields]
  · rw [find?_raw h, find?_raw h', hfields]

/-- Fields of two names in turns: a text and an object of list types, a list of a single type, and
runs that go on from one field to the next. -/
def sampleFields : List LoaderField :=
  [⟨1, "tags", ⟨true, .text⟩, .str "aab"⟩,
    ⟨2, "size", ⟨false, .integer⟩, .arr [.int 1, .float (.ofDecimal false 1 0)]⟩,
    ⟨3, "tags", ⟨false, .enum⟩, .str "b"⟩,
    ⟨4, "size", ⟨true, .boolean⟩, .obj [("x", .null)]⟩,
    ⟨5, "size", ⟨false, .boolean⟩, .int 7⟩]

def sampleViews : FieldViews where
  merged := .ofList [("tags", [.str "a", .str "b"]),
    ("size", [.int 1, .float (.ofDecimal false 1 0), .bool true])]
  raw := .ofList [("tags", .str "b"), ("size", .bool true)]

theorem reconcile_exact_sample : reconcile sampleFields = .ok sampleViews ∧
    Reconciles sampleFields sampleViews ∧
    let reordered := named "size" sampleFields ++ named "tags" sampleFields
    (∀ name, named name reordered = named name sampleFields) ∧
    ∃ views', reconcile reordered = .ok views' ∧ ∀ name,
      views'.merged.find? name = sampleViews.merged.find? name ∧
        views'.raw.find? name = sampleViews.raw.find? name := by
  have h : reconcile sampleFields = .ok sampleViews := by decide +kernel
  obtain ⟨hviews, hreordered⟩ := reconcile_exact h
  have hnamed : ∀ name, named name (named "size" sampleFields ++ named "tags" sampleFields) =
      named name sampleFields := by
    intro name
    by_cases hsize : name = "size"
    · subst hsize; decide +kernel
    · by_cases htags : name = "tags"
      · subst htags; decide +kernel
      · simp [named, sampleFields, Ne.symm hsize, Ne.symm htags]
  exact ⟨h, hviews, hnamed, hreordered _ hnamed⟩

end FieldViews

end CatalogSearch
