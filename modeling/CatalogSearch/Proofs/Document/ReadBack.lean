import CatalogSearch.Document
import CatalogSearch.Proofs.Document.Payload
import CatalogSearch.Proofs.Json.Written
import CatalogSearch.Proofs.Record.Stable

/-!
# Documents that are read back

What is written of a document is read as the document with null in its loader fields for numbers
that are not finite, if each key of an object in them is there once (`Document.ofJson_toJson`). It
is there once in every document that was read (`Document.satisfies_ofJson`).
-/

namespace CatalogSearch

open Schema

theorem stable_loaderFields : Stable (dictionary (list any)) (ofDictionary .arr) := by
  have hvalues : ofList id = Json.arr := funext fun vs => congrArg Json.arr vs.map_id
  exact hvalues ▸ stable_any.list.dictionary

/-- Reading loader fields as they are written merges their values. -/
theorem dictionary_loaderFields (m : OrderedMap String (List Json)) :
    dictionary (list any) (ofDictionary .arr m) = .ok (m.mapValues (List.map Json.merged)) := by
  refine dictionary_mapValues fun e _ => ?_
  have hany : ∀ v ∈ e.2, any (id v) = .ok v.merged := fun _ _ => rfl
  have hvalues := elements_map hany 0
  rwa [List.map_id] at hvalues

namespace Document

variable {d : Document}

/-- Each key of an object in the loader fields is there once. -/
def KeysOnce (d : Document) : Prop := ∀ e ∈ d.loaderFields.entries, ∀ v ∈ e.2, v.merged = v

theorem keysOnce_iff :
    d.KeysOnce ↔ d.loaderFields.mapValues (List.map Json.merged) = d.loaderFields := by
  rw [OrderedMap.mapValues_eq_self_iff]
  exact forall₂_congr fun _ _ => OrderedMap.map_eq_self_iff.symm

/-! ### As it is written -/

theorem written_loaderFields (d : Document) :
    ofDictionary .arr d.written.loaderFields = (ofDictionary .arr d.loaderFields).written := by
  rw [ofDictionary, ofDictionary, Json.written_obj, written, OrderedMap.mapValues, List.map_map,
    List.map_map]
  exact congrArg Json.obj (List.map_congr_left fun e _ => Prod.ext rfl (Json.written_arr e.2).symm)

theorem KeysOnce.written (h : d.KeysOnce) : d.written.KeysOnce := by
  intro e he
  obtain ⟨field, hfield, rfl⟩ := List.mem_map.1 he
  exact List.forall_mem_map.2 fun v hv => Json.merged_written (h field hfield v hv)

/-- Nothing is changed in a document with finite numbers. -/
theorem written_eq (h : ∀ e ∈ d.loaderFields.entries, ∀ v ∈ e.2, v.Finite) : d.written = d := by
  have hfields : d.loaderFields.mapValues (List.map Json.written) = d.loaderFields :=
    OrderedMap.mapValues_eq_self_iff.2 fun e he =>
      OrderedMap.map_eq_self_iff.2 fun v hv => (h e he v hv).written_eq
  rw [written, hfields]

theorem finite_toJson (d : Document) : d.toJson.Finite := by
  have htext (o : Option String) := (restores_nullableText o).floatless.allFloats
    (p := fun x => x.isFinite = true)
  have htexts (l : List String) := (restores_texts l).floatless.allFloats
    (p := fun x => x.isFinite = true)
  refine .obj ?_
  simp only [fields, List.forall_mem_cons]
  exact ⟨.str _, .str _, .str _, .str _, htexts _, htexts _, .int _, .int _, htext _, .str _,
    .str _, .int _, .str _, .int _, .str _, htext _, .bool _, htext _, htexts _, htexts _, htext _,
    (restores_nullableInteger _).floatless.allFloats,
    d.written_loaderFields ▸ Json.finite_written _, htext _, .str _, htext _, .str _, htexts _,
    .str _, (restores_nullableMoment _).floatless.allFloats, .str _, htext _, htexts _,
    (restores_textDictionary _).floatless.allFloats,
    (restores_list fun g _ => GalleryImage.restores g).floatless.allFloats, htexts _, nofun⟩

/-! ### Reading -/

/-- A document is read, as it is written, from an object with its fields, whatever else the object
has. -/
theorem ofJson_of_members {ms : List (String × Json)} (h : d.KeysOnce)
    (hms : ∀ e ∈ d.fields, (Json.obj ms).member? e.1 = some e.2) :
    ofJson (.obj ms) = .ok d.written := by
  have hfields : dictionary (list any) (ofDictionary .arr d.written.loaderFields) =
      .ok d.written.loaderFields := by
    rw [dictionary_loaderFields, keysOnce_iff.1 h.written]
  simp only [fields, List.forall_mem_cons] at hms
  rw [ofJson, object_eq (.obj ms) ⟨_, rfl⟩,
    required_eq "version_id" (restores_text d.versionId).readBack,
    required_eq "project_id" (restores_text d.projectId).readBack,
    required_eq "name" (restores_text d.name).readBack,
    required_eq "summary" (restores_text d.summary).readBack,
    required_eq "categories" (restores_texts d.categories).readBack,
    required_eq "display_categories" (restores_texts d.displayCategories).readBack,
    required_eq "follows" (restores_integer d.follows).readBack,
    required_eq "downloads" (restores_integer d.downloads).readBack,
    optional_eq "icon_url" (restores_nullableText d.iconUrl).readBack,
    required_eq "author" (restores_text d.author).readBack,
    required_eq "date_created" (restores_moment d.dateCreated).readBack,
    required_eq "created_timestamp" (restores_integer d.createdTimestamp).readBack,
    required_eq "date_modified" (restores_moment d.dateModified).readBack,
    required_eq "modified_timestamp" (restores_integer d.modifiedTimestamp).readBack,
    required_eq "license" (restores_text d.license).readBack,
    optional_eq "license_url" (restores_nullableText d.licenseUrl).readBack,
    required_eq "open_source" (restores_boolean d.openSource).readBack,
    optional_eq "slug" (restores_nullableText d.slug).readBack,
    required_eq "project_types" (restores_texts d.projectTypes).readBack,
    required_eq "gallery" (restores_texts d.gallery).readBack,
    optional_eq "featured_gallery" (restores_nullableText d.featuredGallery).readBack,
    optional_eq "color" (restores_nullableInteger d.color).readBack,
    optional_eq "loader_fields" hfields,
    optional_eq "monetization_status" (restores_nullableText d.monetizationStatus).readBack,
    required_eq "team_id" (restores_text d.teamId).readBack,
    optional_eq "organization_id" (restores_nullableText d.organizationId).readBack,
    required_eq "thread_id" (restores_text d.threadId).readBack,
    required_eq "versions" (restores_texts d.versions).readBack,
    required_eq "date_published" (restores_moment d.datePublished).readBack,
    optional_eq "date_queued" (restores_nullableMoment d.dateQueued).readBack,
    required_eq "status" (restores_text d.status).readBack,
    optional_eq "requested_status" (restores_nullableText d.requestedStatus).readBack,
    required_eq "games" (restores_texts d.games).readBack,
    required_eq "links" (restores_textDictionary d.links).readBack,
    required_eq (x := ofList GalleryImage.toJson d.galleryItems) "gallery_items"
      (restores_list fun g _ => GalleryImage.restores g).readBack,
    required_eq "loaders" (restores_texts d.loaders).readBack]
  · rfl
  all_goals simp only [hms]

theorem ofJson_toJson (h : d.KeysOnce) : ofJson d.toJson = .ok d.written :=
  ofJson_of_members h fun _ he => member?_of_mem d.nodup_fields he

/-- What is read of a value within the limits is written within them, each key once. -/
theorem satisfies_ofJson {depth : Nat} {v : Json} (hv : Json.Within depth v) :
    (ofJson v).Satisfies fun d => Json.Within depth d.toJson ∧ d.KeysOnce := by
  refine satisfies_object (P := fun depth (d : Document) => Json.Within depth d.toJson ∧
    d.KeysOnce) (fun a h => by cases h) (fun hv => ?_) hv
  refine .seq ?_ (stable_texts.required hv "loaders")
  refine .seq ?_ (GalleryImage.stable.list.required hv "gallery_items")
  refine .seq ?_ (stable_text.dictionary.required hv "links")
  refine .seq ?_ (stable_texts.required hv "games")
  refine .seq ?_ (stable_nullableText.optional hv "requested_status" kept_none)
  refine .seq ?_ (stable_text.required hv "status")
  refine .seq ?_ (stable_nullableMoment.optional hv "date_queued" kept_none)
  refine .seq ?_ (stable_moment.required hv "date_published")
  refine .seq ?_ (stable_texts.required hv "versions")
  refine .seq ?_ (stable_text.required hv "thread_id")
  refine .seq ?_ (stable_nullableText.optional hv "organization_id" kept_none)
  refine .seq ?_ (stable_text.required hv "team_id")
  refine .seq ?_ (stable_nullableText.optional hv "monetization_status" kept_none)
  refine .seq ?_ (stable_loaderFields.optional hv "loader_fields" kept_empty)
  refine .seq ?_ (stable_nullableInteger.optional hv "color" kept_none)
  refine .seq ?_ (stable_nullableText.optional hv "featured_gallery" kept_none)
  refine .seq ?_ (stable_texts.required hv "gallery")
  refine .seq ?_ (stable_texts.required hv "project_types")
  refine .seq ?_ (stable_nullableText.optional hv "slug" kept_none)
  refine .seq ?_ (stable_boolean.required hv "open_source")
  refine .seq ?_ (stable_nullableText.optional hv "license_url" kept_none)
  refine .seq ?_ (stable_text.required hv "license")
  refine .seq ?_ (stable_integer.required hv "modified_timestamp")
  refine .seq ?_ (stable_moment.required hv "date_modified")
  refine .seq ?_ (stable_integer.required hv "created_timestamp")
  refine .seq ?_ (stable_moment.required hv "date_created")
  refine .seq ?_ (stable_text.required hv "author")
  refine .seq ?_ (stable_nullableText.optional hv "icon_url" kept_none)
  refine .seq ?_ (stable_integer.required hv "downloads")
  refine .seq ?_ (stable_integer.required hv "follows")
  refine .seq ?_ (stable_texts.required hv "display_categories")
  refine .seq ?_ (stable_texts.required hv "categories")
  refine .seq ?_ (stable_text.required hv "summary")
  refine .seq ?_ (stable_text.required hv "name")
  refine .seq ?_ (stable_text.required hv "project_id")
  refine .map (stable_text.required hv "version_id") ?_
  intro _ hversionId _ hprojectId _ hname _ hsummary _ hcategories _ hdisplayCategories _
    hfollows _ hdownloads _ hiconUrl _ hauthor _ hdateCreated _ hcreatedTimestamp _ hdateModified
    _ hmodifiedTimestamp _ hlicense _ hlicenseUrl _ hopenSource _ hslug _ hprojectTypes _ hgallery
    _ hfeaturedGallery _ hcolor _ hloaderFields _ hmonetizationStatus _ hteamId _ horganizationId
    _ hthreadId _ hversions _ hdatePublished _ hdateQueued _ hstatus _ hrequestedStatus _ hgames _
    hlinks _ hgalleryItems _ hloaders
  have hkeys := Checked.ok.inj ((dictionary_loaderFields _).symm.trans hloaderFields.readBack)
  refine ⟨Json.within_obj.2 ?_, keysOnce_iff.2 hkeys⟩
  simp only [fields, List.forall_mem_cons]
  exact ⟨hversionId.within, hprojectId.within, hname.within, hsummary.within,
    hcategories.within, hdisplayCategories.within, hfollows.within, hdownloads.within,
    hiconUrl.within, hauthor.within, hdateCreated.within, hcreatedTimestamp.within,
    hdateModified.within, hmodifiedTimestamp.within, hlicense.within, hlicenseUrl.within,
    hopenSource.within, hslug.within, hprojectTypes.within, hgallery.within,
    hfeaturedGallery.within, hcolor.within,
    written_loaderFields _ ▸ hloaderFields.within.written, hmonetizationStatus.within,
    hteamId.within, horganizationId.within, hthreadId.within, hversions.within,
    hdatePublished.within, hdateQueued.within, hstatus.within, hrequestedStatus.within,
    hgames.within, hlinks.within, hgalleryItems.within, hloaders.within, nofun⟩

end Document

end CatalogSearch
