import CatalogSearch.Proofs.Data.OneEach
import CatalogSearch.Proofs.Loading.Batch
import CatalogSearch.Proofs.Store.Keyed

/-!
# Loader fields by rows

The loader fields of a version's record, against the rows of the store that hold their values. In a
store whose keys hold, a row of a value finds one field and at most one enumeration value, so the
query for the values of a version is a sorted list of its rows (`fieldValuesOf_eq`). The record then
has one field for each field id that some row holds a value for (`fieldsOf_versionOf`).
-/

namespace CatalogSearch

namespace Store

variable (s : Store)

/-! ### Rows and the values that they hold -/

/-- What the row of a value holds for a field of a kind. -/
inductive Holds (r : VersionFieldRow) : FieldKind → Json → Prop where
  | integer {n : Int} : r.intValue = some n → Holds r .integer (.int n)
  | boolean {n : Int} : r.intValue = some n → Holds r .boolean (.bool (n ≠ 0))
  | enum {e : EnumValueRow} : e ∈ s.enumValues → r.enumValue = some e.id →
    Holds r .enum (.str e.value)
  | text {t : String} : r.textValue = some t → Holds r .text (.str t)

/-- The row is one of the version for the field, which has the type, and holds the value. -/
structure Fills (versionId : Int) (f : FieldRow) (t : FieldType) (r : VersionFieldRow) (p : Json) :
    Prop where
  field : f ∈ s.fields
  type : f.type = t.name
  row : r ∈ s.versionFields
  versionId : r.versionId = versionId
  fieldId : r.fieldId = f.id
  holds : s.Holds r t.kind p

/-- The value of a field of a version: of a list what all rows hold that hold something, in the
order of their ids, else what the first of these rows holds. -/
inductive Gathers (versionId : Int) (f : FieldRow) (t : FieldType) : Json → Prop where
  | list {rows : List VersionFieldRow} {ps : List Json} : t.isArray = true →
    rows.Pairwise (·.id < ·.id) → (∀ r, r ∈ rows ↔ ∃ p, s.Fills versionId f t r p) →
    List.Forall₂ (s.Fills versionId f t) rows ps → Gathers versionId f t (.arr ps)
  | single {r : VersionFieldRow} {p : Json} : t.isArray = false → s.Fills versionId f t r p →
    (∀ r' p', s.Fills versionId f t r' p' → r.id ≤ r'.id) → Gathers versionId f t p

/-- The fields of a version: one for each field id for which some row holds a value, in the order
of these ids, with the name and the type of the field and the value gathered for it. -/
structure FieldsOf (versionId : Int) (fields : List LoaderField) : Prop where
  increasing : fields.Pairwise (·.fieldId < ·.fieldId)
  exists_iff : ∀ id, id ∈ fields.map LoaderField.fieldId ↔
    ∃ f t r p, f.id = id ∧ s.Fills versionId f t r p
  gathers : ∀ g ∈ fields, ∃ f ∈ s.fields, f.id = g.fieldId ∧ f.name = g.name ∧
    f.type = g.type.name ∧ s.Gathers versionId f g.type g.value

/-! ### The query -/

/-- The enumeration value that the row of a value refers to. -/
def enumValue? (r : VersionFieldRow) : Option EnumValueRow :=
  r.enumValue.bind fun n => s.enumValues.find? fun e => e.id = n

/-- The row of a value, joined with its field and the text of its enumeration value. -/
def fieldValue? (r : VersionFieldRow) : Option FieldValue :=
  (s.fields.find? fun f => f.id = r.fieldId).map fun f =>
    ⟨r.versionId, r.fieldId, r.id, f.name, f.type, r.intValue, r.textValue,
      (s.enumValue? r).map (·.value)⟩

/-- The order of the rows of values: by version, by field and by id. -/
def valueRowLe : VersionFieldRow → VersionFieldRow → Bool :=
  lexLe (byKey VersionFieldRow.versionId intLe) <|
  lexLe (byKey VersionFieldRow.fieldId intLe) (byKey VersionFieldRow.id intLe)

/-- The rows of the values of a version, by field and by id. -/
def valueRows (versionId : Int) : List VersionFieldRow :=
  sortBy valueRowLe (s.versionFields.filter fun r => r.versionId = versionId)

theorem totalPreorder_valueRowLe : TotalPreorder valueRowLe :=
  .lexLe (.byInt _) (.lexLe (.byInt _) (.byInt _))

variable {s} {id : Int} {r : VersionFieldRow}

theorem mem_valueRows : r ∈ s.valueRows id ↔ r ∈ s.versionFields ∧ r.versionId = id := by
  simp [valueRows]

/-- An outer join with a table whose ids differ has one match, which may be missing. -/
theorem orMissing_enumValues (h : s.Keyed) (r : VersionFieldRow) :
    orMissing (s.enumValues.filter fun e => some e.id = r.enumValue) = [s.enumValue? r] := by
  cases hr : r.enumValue with
  | none => simp [enumValue?, hr, orMissing]
  | some n =>
    simp only [enumValue?, hr, Option.some.injEq, Option.bind_some]
    rw [filter_key_eq_toList h.nodup_enumValues]
    cases s.enumValues.find? fun e => e.id = n <;> rfl

theorem fieldValuesOf_eq (h : s.Keyed) (id : Int) :
    s.fieldValuesOf [id] = (s.valueRows id).filterMap s.fieldValue? := by
  have hjoin (r : VersionFieldRow) : ((s.fields.filter fun f => f.id = r.fieldId).flatMap fun f =>
      (orMissing (s.enumValues.filter fun e => some e.id = r.enumValue)).map fun e =>
        (⟨r.versionId, r.fieldId, r.id, f.name, f.type, r.intValue, r.textValue,
          e.map (·.value)⟩ : FieldValue)) = (s.fieldValue? r).toList := by
    rw [filter_key_eq_toList h.nodup_fields, orMissing_enumValues h, fieldValue?]
    cases s.fields.find? fun f => f.id = r.fieldId <;> rfl
  rw [fieldValuesOf, valueRows, filterMap_sortBy totalPreorder_valueRowLe,
    filter_contains_singleton]
  · congr 1
    induction s.versionFields.filter fun r => r.versionId = id with
    | nil => rfl
    | cons r rest ih =>
      rw [List.flatMap_cons, hjoin, ih, List.filterMap_cons]
      cases s.fieldValue? r <;> rfl
  · intro r r' x x' hx hx'
    obtain ⟨f, -, rfl⟩ := Option.map_eq_some_iff.1 hx
    obtain ⟨f', -, rfl⟩ := Option.map_eq_some_iff.1 hx'
    rfl

/-! ### What rows hold -/

theorem enumValue?_eq_some (h : s.Keyed) {e : EnumValueRow} :
    s.enumValue? r = some e ↔ e ∈ s.enumValues ∧ r.enumValue = some e.id := by
  rw [enumValue?, Option.bind_eq_some_iff]
  constructor
  · rintro ⟨n, hn, he⟩
    obtain ⟨hmem, rfl⟩ := (find?_key_eq_some h.nodup_enumValues).1 he
    exact ⟨hmem, hn⟩
  · rintro ⟨he, hr⟩
    exact ⟨e.id, hr, (find?_key_eq_some h.nodup_enumValues).2 ⟨he, rfl⟩⟩

/-- The typed value that the row of a value makes, if any. -/
def typedRow? (s : Store) (r : VersionFieldRow) : Option Hydration.TypedValue :=
  (s.fieldValue? r).bind Hydration.typedValue?

theorem payload?_eq_some (h : s.Keyed) {f : FieldRow} {t : FieldType} {p : Json} :
    Hydration.payload? t ⟨r.versionId, r.fieldId, r.id, f.name, f.type, r.intValue, r.textValue,
      (s.enumValue? r).map (·.value)⟩ = some p ↔ s.Holds r t.kind p := by
  obtain ⟨isArray, kind⟩ := t
  cases kind with
  | integer =>
    constructor
    · intro hp
      obtain ⟨n, hn, rfl⟩ := Option.map_eq_some_iff.1 hp
      exact .integer hn
    · intro hp
      cases hp with
      | integer hn => simp [Hydration.payload?, hn]
  | boolean =>
    constructor
    · intro hp
      obtain ⟨n, hn, rfl⟩ := Option.map_eq_some_iff.1 hp
      exact .boolean hn
    · intro hp
      cases hp with
      | boolean hn => simp [Hydration.payload?, hn]
  | enum =>
    constructor
    · intro hp
      obtain ⟨_, hvalue, rfl⟩ := Option.map_eq_some_iff.1 hp
      obtain ⟨e, he, rfl⟩ := Option.map_eq_some_iff.1 hvalue
      obtain ⟨hmem, hid⟩ := (enumValue?_eq_some h).1 he
      exact .enum hmem hid
    · intro hp
      cases hp with
      | enum hmem hid => simp [Hydration.payload?, (enumValue?_eq_some h).2 ⟨hmem, hid⟩]
  | text =>
    constructor
    · intro hp
      obtain ⟨t, ht, rfl⟩ := Option.map_eq_some_iff.1 hp
      exact .text ht
    · intro hp
      cases hp with
      | text ht => simp [Hydration.payload?, ht]

/-- A row makes a typed value iff it holds one for the field that it refers to. -/
theorem typedRow?_eq_some (h : s.Keyed) (hr : r ∈ s.versionFields) {v : Hydration.TypedValue} :
    s.typedRow? r = some v ↔ ∃ f, s.Fills v.versionId f v.type r v.payload ∧ v.fieldId = f.id ∧
      v.name = f.name := by
  rw [typedRow?, fieldValue?, Option.bind_eq_some_iff]
  constructor
  · rintro ⟨x, hx, hv⟩
    obtain ⟨f, hf, rfl⟩ := Option.map_eq_some_iff.1 hx
    obtain ⟨hmem, hid⟩ := (find?_key_eq_some h.nodup_fields).1 hf
    obtain ⟨t, ht, hv⟩ := Option.bind_eq_some_iff.1 hv
    obtain ⟨p, hp, rfl⟩ := Option.map_eq_some_iff.1 hv
    have hname := FieldType.ofName?_eq_some.1 ht
    exact ⟨f, ⟨hmem, hname, hr, rfl, hid.symm, (payload?_eq_some h).1 hp⟩, hid.symm, rfl⟩
  · rintro ⟨f, hfills, hid, hname⟩
    obtain ⟨versionId, fieldId, name, t, p⟩ := v
    obtain ⟨hmem, ht, -, rfl, hfieldId, hholds⟩ := hfills
    obtain rfl : fieldId = r.fieldId := hid.trans hfieldId.symm
    obtain rfl : name = f.name := hname
    have hf := (find?_key_eq_some h.nodup_fields).2 ⟨hmem, hfieldId.symm⟩
    refine ⟨_, Option.map_eq_some_iff.2 ⟨f, hf, rfl⟩, ?_⟩
    simp only [Hydration.typedValue?, FieldType.ofName?_eq_some.2 ht, Option.bind_some,
      (payload?_eq_some h).2 hholds, Option.map_some]

/-! ### The fields of a record -/

/-- The typed values of a version, by field and by the id of their row. -/
def ownValues (s : Store) (id : Int) : List Hydration.TypedValue :=
  (s.valueRows id).filterMap s.typedRow?

theorem mem_ownValues (h : s.Keyed) {v : Hydration.TypedValue} :
    v ∈ s.ownValues id ↔ v.versionId = id ∧
      ∃ f r, s.Fills id f v.type r v.payload ∧ v.fieldId = f.id ∧ v.name = f.name := by
  rw [ownValues, List.mem_filterMap]
  constructor
  · rintro ⟨r, hr, hv⟩
    obtain ⟨hmem, rfl⟩ := mem_valueRows.1 hr
    obtain ⟨f, hfills, hnamed⟩ := (typedRow?_eq_some h hmem).1 hv
    have hid : r.versionId = v.versionId := hfills.versionId
    rw [hid]
    exact ⟨rfl, f, r, hfills, hnamed⟩
  · rintro ⟨rfl, f, r, hfills, hnamed⟩
    refine ⟨r, mem_valueRows.2 ⟨hfills.row, hfills.versionId⟩, ?_⟩
    exact (typedRow?_eq_some h hfills.row).2 ⟨f, hfills, hnamed⟩

theorem fields_versionOf (h : s.Keyed) (r : VersionRow) : (s.versionOf r).fields =
    (distinctBy Hydration.TypedValue.fieldId (s.ownValues r.id)).map
      (Hydration.field (s.ownValues r.id)) := by
  have hvalues : (s.fieldValuesOf [r.id]).filterMap Hydration.typedValue? = s.ownValues r.id := by
    rw [fieldValuesOf_eq h, List.filterMap_filterMap]
    rfl
  have hown : (s.ownValues r.id).filter (fun v => v.versionId = r.id) = s.ownValues r.id := by
    apply List.filter_eq_self.2
    intro v hv
    simp [((mem_ownValues h).1 hv).1]
  rw [versionOf, Hydration.version, hvalues, Hydration.fields, hown]

theorem pairwise_valueRows (s : Store) (id : Int) :
    (s.valueRows id).Pairwise
      (lexLe (byKey VersionFieldRow.fieldId intLe) (byKey VersionFieldRow.id intLe) · · = true) := by
  apply pairwise_next (pairwise_sortBy totalPreorder_valueRowLe _)
  intro r hr
  exact (mem_valueRows.1 hr).2

theorem nodup_valueRows (h : s.Keyed) (id : Int) :
    ((s.valueRows id).map VersionFieldRow.id).Nodup :=
  nodup_map_sortBy.2 (h.nodup_versionFields.sublist (List.filter_sublist.map _))

/-- What a partial function gives stands beside where it is defined. -/
theorem forall₂_filterMap {α β : Type} {R : α → β → Prop} {f : α → Option β} {l : List α}
    (h : ∀ a ∈ l, ∀ b, f a = some b → R a b) :
    List.Forall₂ R (l.filter fun a => (f a).isSome) (l.filterMap f) := by
  induction l with
  | nil => exact .nil
  | cons a rest ih =>
    obtain ⟨ha, hrest⟩ := List.forall_mem_cons.1 h
    cases hb : f a with
    | none => simpa [hb] using ih hrest
    | some b =>
      rw [List.filter_cons_of_pos (by simp [hb]), List.filterMap_cons_some hb]
      exact .cons (ha b hb) (ih hrest)

/-- The typed value that a row makes for a field, if any. -/
def typedFor? (s : Store) (f : FieldRow) (r : VersionFieldRow) : Option Hydration.TypedValue :=
  (s.typedRow? r).filter fun v => v.fieldId = f.id

section Field

variable {f : FieldRow} {t : FieldType}

theorem fills_of_typedFor? (h : s.Keyed) (hf : f ∈ s.fields)
    (ht : f.type = t.name) (hr : r ∈ s.valueRows id) {v : Hydration.TypedValue}
    (hv : s.typedFor? f r = some v) : s.Fills id f t r v.payload := by
  obtain ⟨hmem, hid⟩ := mem_valueRows.1 hr
  obtain ⟨hv, hfieldId⟩ := Option.filter_eq_some_iff.1 hv
  obtain ⟨f', hfills, hf', -⟩ := (typedRow?_eq_some h hmem).1 hv
  obtain rfl : f' = f :=
    List.inj_on_of_nodup_map h.nodup_fields hfills.field hf (hf' ▸ of_decide_eq_true hfieldId)
  obtain rfl : v.type = t := FieldType.name_injective (hfills.type.symm.trans ht)
  obtain rfl : v.versionId = id := hfills.versionId.symm.trans hid
  exact hfills

theorem typedFor?_of_fills (h : s.Keyed) {p : Json} (hp : s.Fills id f t r p) :
    s.typedFor? f r = some ⟨id, f.id, f.name, t, p⟩ :=
  Option.filter_eq_some_iff.2
    ⟨(typedRow?_eq_some h hp.row).2 ⟨f, hp, rfl, rfl⟩, decide_eq_true rfl⟩

/-- The typed values of a version for a field, beside the rows that hold them. -/
theorem exists_rows (h : s.Keyed) (hf : f ∈ s.fields) (ht : f.type = t.name)
    (id : Int) :
    ∃ rows : List VersionFieldRow, rows.Pairwise (·.id < ·.id) ∧
      (∀ r, r ∈ rows ↔ ∃ p, s.Fills id f t r p) ∧
      List.Forall₂ (fun r v => s.Fills id f t r v.payload) rows
        ((s.ownValues id).filter fun v => v.fieldId = f.id) := by
  have hmem (r : VersionFieldRow) :
      r ∈ (s.valueRows id).filter (fun r => (s.typedFor? f r).isSome) ↔
        ∃ p, s.Fills id f t r p := by
    rw [List.mem_filter, Option.isSome_iff_exists]
    constructor
    · rintro ⟨hr, v, hv⟩
      exact ⟨v.payload, fills_of_typedFor? h hf ht hr hv⟩
    · rintro ⟨p, hp⟩
      exact ⟨mem_valueRows.2 ⟨hp.row, hp.versionId⟩, _, typedFor?_of_fills h hp⟩
  refine ⟨_, ?_, hmem, ?_⟩
  · apply pairwise_key_lt
    · apply pairwise_next ((s.pairwise_valueRows id).sublist List.filter_sublist)
      intro r hr
      obtain ⟨p, hp⟩ := (hmem r).1 hr
      exact hp.fieldId
    · exact (nodup_valueRows h id).sublist (List.filter_sublist.map _)
  · rw [ownValues, List.filter_filterMap]
    exact forall₂_filterMap fun r hr v hv => fills_of_typedFor? h hf ht hr hv

end Field

theorem pairwise_ownValues (h : s.Keyed) (id : Int) :
    (s.ownValues id).Pairwise (byKey Hydration.TypedValue.fieldId intLe · · = true) := by
  apply List.pairwise_filterMap.2
  apply (s.pairwise_valueRows id).imp_of_mem
  intro r r' hr hr' hle v hv v' hv'
  obtain ⟨f, hfills, hf, -⟩ := (typedRow?_eq_some h (mem_valueRows.1 hr).1).1 hv
  obtain ⟨f', hfills', hf', -⟩ := (typedRow?_eq_some h (mem_valueRows.1 hr').1).1 hv'
  rw [byKey, hf, hf', ← hfills.fieldId, ← hfills'.fieldId]
  exact (lexLe_eq_true.1 hle).1

/-- The value of the field whose first value is given. -/
theorem gathers_field (h : s.Keyed) {f : FieldRow} {v : Hydration.TypedValue}
    (hf : f ∈ s.fields) (ht : f.type = v.type.name) (hid : v.fieldId = f.id)
    (hv : v ∈ distinctBy Hydration.TypedValue.fieldId (s.ownValues id)) :
    s.Gathers id f v.type (Hydration.field (s.ownValues id) v).value := by
  obtain ⟨rows, hrows, hmem, hfills⟩ := exists_rows h hf ht id
  rw [← hid] at hfills
  rw [Hydration.field]
  split
  · next harray =>
    exact .list harray hrows hmem (List.forall₂_map_right_iff.2 hfills)
  · next harray =>
    obtain ⟨rest, hrest⟩ := exists_filter_key_eq_cons hv
    rw [hrest, List.forall₂_cons_right_iff] at hfills
    obtain ⟨r, rows', hr, -, rfl⟩ := hfills
    refine .single (Bool.eq_false_iff.2 harray) hr ?_
    intro r' p' hr'
    rcases List.mem_cons.1 ((hmem r').2 ⟨p', hr'⟩) with rfl | hlater
    · exact Int.le_refl _
    · exact Int.le_of_lt (List.rel_of_pairwise_cons hrows hlater)

/-- The record of a version has the fields that its rows tell. -/
theorem fieldsOf_versionOf (h : s.Keyed) (r : VersionRow) :
    s.FieldsOf r.id (s.versionOf r).fields := by
  rw [fields_versionOf h]
  refine ⟨?_, ?_, ?_⟩
  · apply List.pairwise_map.2
    apply pairwise_key_lt _ (nodup_map_distinctBy _ _)
    exact (pairwise_ownValues h r.id).sublist (distinctBy_sublist _ _)
  · intro n
    rw [List.map_map]
    change n ∈ (distinctBy _ _).map Hydration.TypedValue.fieldId ↔ _
    rw [mem_map_distinctBy, List.mem_map]
    constructor
    · rintro ⟨v, hv, rfl⟩
      obtain ⟨-, f, row, hfills, hid, -⟩ := (mem_ownValues h).1 hv
      exact ⟨f, v.type, row, v.payload, hid.symm, ((mem_ownValues h).1 hv).1 ▸ hfills⟩
    · rintro ⟨f, t, row, p, rfl, hfills⟩
      exact ⟨⟨r.id, f.id, f.name, t, p⟩, (mem_ownValues h).2 ⟨rfl, f, row, hfills, rfl, rfl⟩, rfl⟩
  · intro g hg
    obtain ⟨v, hv, rfl⟩ := List.mem_map.1 hg
    have hown := (distinctBy_sublist _ _).subset hv
    obtain ⟨-, f, row, hfills, hid, hname⟩ := (mem_ownValues h).1 hown
    exact ⟨f, hfills.field, hid.symm, hname.symm, hfills.type,
      gathers_field h hfills.field hfills.type hid hv⟩

/-- Versions are hydrated with the fields that their rows tell: whatever the batch, it has one record
for each row of a version asked for. -/
theorem hydrated_fieldsOf (h : s.Keyed) (hs : s.ValidFieldTypes) (ids : List Int) :
    ∃ versions, Attempt.Yields s (Hydration.versions ids) (.ok versions) ∧
      OneEach (s.versions.filter fun r => r.id ∈ ids)
        (fun r v => v.id = r.id ∧ s.FieldsOf r.id v.fields) versions :=
  exists_versions hs (fun r => ⟨rfl, fieldsOf_versionOf h r⟩) ids

/-- A store with the values of several fields of two versions, in no order. -/
def scattered : Store :=
  { sample with
    fields := [⟨3, "motto", "text", none⟩, ⟨1, "game_versions", "array_enum", some 1⟩,
      ⟨4, "client_only", "boolean", none⟩, ⟨2, "players", "array_integer", none⟩]
    enumValues := [⟨1, 1, "1.20", none⟩, ⟨2, 1, "1.21", none⟩]
    versionFields := [⟨9, 7, 1, none, none, some 1⟩, ⟨8, 7, 3, none, some "late", none⟩,
      ⟨3, 8, 1, none, none, some 1⟩, ⟨5, 7, 4, some 0, none, none⟩,
      ⟨6, 7, 2, some 0, none, none⟩, ⟨4, 7, 2, none, some "two", none⟩,
      ⟨7, 7, 3, none, some "", none⟩, ⟨2, 7, 1, none, none, some 2⟩,
      ⟨1, 7, 3, none, none, none⟩] }

theorem keyed_scattered : scattered.Keyed := by
  intro t
  cases t <;> decide

theorem hydrated_fieldsOf_scattered : scattered.Keyed ∧ scattered.ValidFieldTypes ∧
    ∃ versions, Attempt.Yields scattered (Hydration.versions [8, 12, 7]) (.ok versions) ∧
      OneEach (scattered.versions.filter fun r => r.id ∈ [8, 12, 7])
        (fun r v => v.id = r.id ∧ scattered.FieldsOf r.id v.fields) versions :=
  have htypes : scattered.ValidFieldTypes := by decide +kernel
  ⟨keyed_scattered, htypes, hydrated_fieldsOf keyed_scattered htypes [8, 12, 7]⟩

/-- Zeros, what is false and empty texts are values, and a row without any is passed over. -/
example : (scattered.versionOf ⟨7, 100, "One", "1.0", "listed", .epoch⟩).fields =
    [⟨1, "game_versions", ⟨true, .enum⟩, .arr [.str "1.21", .str "1.20"]⟩,
      ⟨2, "players", ⟨true, .integer⟩, .arr [.int 0]⟩, ⟨3, "motto", ⟨false, .text⟩, .str ""⟩,
      ⟨4, "client_only", ⟨false, .boolean⟩, .bool false⟩] := by
  rfl

end Store

end CatalogSearch
