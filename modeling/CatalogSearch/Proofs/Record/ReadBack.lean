import CatalogSearch.Proofs.Schema.ReadBack
import CatalogSearch.Record.Project
import CatalogSearch.Record.Version

/-!
# Records are read back

Records are read back from what is written of them: every project (`Project.restores`), and every
version whose fields hold plain values (`Version.restores`).
-/

namespace CatalogSearch

open Schema

theorem GalleryImage.restores (g : GalleryImage) : Restores ofJson toJson g where
  readBack := by
    rw [ofJson, object_eq g.toJson ⟨_, rfl⟩,
      required_eq "image_url" (restores_text g.imageUrl).readBack,
      optional_eq "featured" (restores_boolean g.featured).readBack,
      optional_eq "name" (restores_nullableText g.name).readBack,
      optional_eq "description" (restores_nullableText g.description).readBack,
      required_eq "created" (restores_moment g.created).readBack,
      optional_eq "ordering" (restores_integer g.ordering).readBack]
    all_goals rfl
  floatless := by
    refine .obj ?_
    simp only [List.forall_mem_cons]
    exact ⟨.str _, .bool _, (restores_nullableText _).floatless,
      (restores_nullableText _).floatless, .str _, .int _, nofun⟩

theorem Project.restores (p : Project) : Restores ofJson toJson p where
  readBack := by
    rw [ofJson, object_eq p.toJson ⟨_, rfl⟩,
      required_eq "id" (restores_integer p.id).readBack,
      required_eq "name" (restores_text p.name).readBack,
      optional_eq "summary" (restores_text p.summary).readBack,
      optional_eq "slug" (restores_nullableText p.slug).readBack,
      optional_eq "categories" (restores_texts p.categories).readBack,
      optional_eq "additional_categories" (restores_texts p.additionalCategories).readBack,
      required_eq "license" (restores_text p.license).readBack,
      optional_eq "license_url" (restores_nullableText p.licenseUrl).readBack,
      optional_eq "icon_url" (restores_nullableText p.iconUrl).readBack,
      optional_eq "color" (restores_nullableInteger p.color).readBack,
      required_eq "team_id" (restores_integer p.teamId).readBack,
      optional_eq "organization_id" (restores_nullableInteger p.organizationId).readBack,
      required_eq "thread_id" (restores_integer p.threadId).readBack,
      required_eq "status" (restores_text p.status).readBack,
      optional_eq "requested_status" (restores_nullableText p.requestedStatus).readBack,
      optional_eq "follows" (restores_integer p.follows).readBack,
      optional_eq "downloads" (restores_integer p.downloads).readBack,
      optional_eq "approved_at" (restores_nullableMoment p.approvedAt).readBack,
      required_eq "published_at" (restores_moment p.publishedAt).readBack,
      required_eq "updated_at" (restores_moment p.updatedAt).readBack,
      optional_eq "queued_at" (restores_nullableMoment p.queuedAt).readBack,
      required_eq "monetization_status" (restores_text p.monetizationStatus).readBack,
      optional_eq "project_types" (restores_texts p.projectTypes).readBack,
      optional_eq "games" (restores_texts p.games).readBack,
      optional_eq "links" (restores_textDictionary p.links).readBack,
      optional_eq "gallery_items" (restores_list fun g _ => GalleryImage.restores g).readBack,
      optional_eq "version_ids" (restores_integers p.versionIds).readBack]
    all_goals rfl
  floatless := by
    have htext (o : Option String) := (restores_nullableText o).floatless
    have hinteger (o : Option Int) := (restores_nullableInteger o).floatless
    have hmoment (o : Option Moment) := (restores_nullableMoment o).floatless
    have htexts (l : List String) := (restores_texts l).floatless
    refine .obj ?_
    simp only [List.forall_mem_cons]
    exact ⟨.int _, .str _, .str _, htext _, htexts _, htexts _, .str _, htext _, htext _,
      hinteger _, .int _, hinteger _, .int _, .str _, htext _, .int _, .int _, hmoment _, .str _,
      .str _, hmoment _, .str _, htexts _, htexts _, (restores_textDictionary _).floatless,
      (restores_list fun g _ => GalleryImage.restores g).floatless,
      (restores_integers _).floatless, nofun⟩

/-! ### Versions -/

/-- A value is plain: without floating-point numbers, and with each key of an object once. -/
structure Json.Plain (v : Json) : Prop where
  merged : v.merged = v
  floatless : v.Floatless

theorem Json.plain_bool (b : Bool) : (Json.bool b).Plain := ⟨rfl, .bool b⟩

theorem Json.plain_int (n : Int) : (Json.int n).Plain := ⟨rfl, .int n⟩

theorem Json.plain_str (s : String) : (Json.str s).Plain := ⟨rfl, .str s⟩

theorem Json.plain_arr {vs : List Json} (h : ∀ v ∈ vs, v.Plain) : (Json.arr vs).Plain where
  merged := by
    have helements : mergedElements vs = vs := by
      induction vs with
      | nil => rfl
      | cons v vs ih =>
        obtain ⟨hv, hvs⟩ := List.forall_mem_cons.1 h
        rw [mergedElements, hv.merged, ih hvs]
    rw [Json.merged, helements]
  floatless := .arr fun v hv => (h v hv).floatless

theorem restores_fieldType (t : FieldType) :
    Restores LoaderField.readType (fun t => .str t.name) t where
  readBack := by rw [LoaderField.readType, t.ofName?_name, Checked.ofOption]
  floatless := .str _

theorem LoaderField.ofJson_toJson {f : LoaderField} (h : f.value.merged = f.value) :
    ofJson f.toJson = .ok f := by
  have hvalue : any f.value = .ok f.value := congrArg Checked.ok h
  rw [ofJson, object_eq f.toJson ⟨_, rfl⟩,
    required_eq "field_id" (restores_integer f.fieldId).readBack,
    required_eq "field_name" (restores_text f.name).readBack,
    required_eq "field_type" (restores_fieldType f.type).readBack,
    required_eq "value" hvalue]
  all_goals rfl

theorem LoaderField.allFloats_toJson {p : Binary64 → Prop} {f : LoaderField}
    (h : f.value.AllFloats p) : f.toJson.AllFloats p := by
  refine .obj ?_
  simp only [List.forall_mem_cons]
  exact ⟨.int _, .str _, .str _, h, nofun⟩

/-- A version is read back if its fields are. -/
theorem Version.ofJson_toJson {v : Version}
    (h : list LoaderField.ofJson (ofList LoaderField.toJson v.fields) = .ok v.fields) :
    ofJson v.toJson = .ok v := by
  rw [ofJson, object_eq v.toJson ⟨_, rfl⟩,
    required_eq "id" (restores_integer v.id).readBack,
    required_eq "project_id" (restores_integer v.projectId).readBack,
    required_eq "status" (restores_text v.status).readBack,
    optional_eq "loaders" (restores_texts v.loaders).readBack,
    optional_eq "project_types" (restores_texts v.projectTypes).readBack,
    optional_eq "version_fields" h]
  all_goals rfl

theorem Version.allFloats_toJson {p : Binary64 → Prop} {v : Version}
    (h : ∀ f ∈ v.fields, f.value.AllFloats p) : v.toJson.AllFloats p := by
  have htexts (l : List String) := (restores_texts l).floatless.allFloats (p := p)
  refine .obj ?_
  simp only [List.forall_mem_cons]
  exact ⟨.int _, .int _, .str _, htexts _, htexts _,
    allFloats_ofList fun f hf => LoaderField.allFloats_toJson (h f hf), nofun⟩

theorem Version.restores {v : Version} (h : ∀ f ∈ v.fields, f.value.Plain) :
    Restores ofJson toJson v :=
  ⟨ofJson_toJson (list_ofList fun f hf => LoaderField.ofJson_toJson (h f hf).merged),
    allFloats_toJson fun f hf => (h f hf).floatless⟩

end CatalogSearch
