import CatalogSearch.Proofs.Record.ReadBack
import CatalogSearch.Proofs.Schema.Stable

/-!
# Records are stable

Whatever spellings and defaults a record was read of, what is written of it is within the same
limits and read as the record again (`Project.stable`, `Version.stable`).
-/

namespace CatalogSearch

open Schema

theorem GalleryImage.stable : Stable ofJson toJson := by
  refine Stable.object (fun a h => by cases h) fun hv => ?_
  -- from the last field to the first, the order in which their readings can be taken apart
  refine .seq ?_ (stable_integer.optional hv "ordering" kept_zero)
  refine .seq ?_ (stable_moment.required hv "created")
  refine .seq ?_ (stable_nullableText.optional hv "description" kept_none)
  refine .seq ?_ (stable_nullableText.optional hv "name" kept_none)
  refine .seq ?_ (stable_boolean.optional hv "featured" ⟨Json.within_bool _, rfl⟩)
  refine .map (stable_text.required hv "image_url") ?_
  intro _ himageUrl _ hfeatured _ hname _ hdescription _ hcreated _ hordering
  refine ⟨Json.within_obj.2 ?_, (restores _).readBack⟩
  simp only [List.forall_mem_cons]
  exact ⟨himageUrl.within, hfeatured.within, hname.within, hdescription.within, hcreated.within,
    hordering.within, nofun⟩

theorem Project.stable : Stable ofJson toJson := by
  refine Stable.object (fun a h => by cases h) fun hv => ?_
  refine .seq ?_ (stable_integers.optional hv "version_ids" kept_nil)
  refine .seq ?_ (GalleryImage.stable.list.optional hv "gallery_items" kept_nil)
  refine .seq ?_ (stable_text.dictionary.optional hv "links" kept_empty)
  refine .seq ?_ (stable_texts.optional hv "games" kept_nil)
  refine .seq ?_ (stable_texts.optional hv "project_types" kept_nil)
  refine .seq ?_ (stable_text.required hv "monetization_status")
  refine .seq ?_ (stable_nullableMoment.optional hv "queued_at" kept_none)
  refine .seq ?_ (stable_moment.required hv "updated_at")
  refine .seq ?_ (stable_moment.required hv "published_at")
  refine .seq ?_ (stable_nullableMoment.optional hv "approved_at" kept_none)
  refine .seq ?_ (stable_integer.optional hv "downloads" kept_zero)
  refine .seq ?_ (stable_integer.optional hv "follows" kept_zero)
  refine .seq ?_ (stable_nullableText.optional hv "requested_status" kept_none)
  refine .seq ?_ (stable_text.required hv "status")
  refine .seq ?_ (stable_integer.required hv "thread_id")
  refine .seq ?_ (stable_nullableInteger.optional hv "organization_id" kept_none)
  refine .seq ?_ (stable_integer.required hv "team_id")
  refine .seq ?_ (stable_nullableInteger.optional hv "color" kept_none)
  refine .seq ?_ (stable_nullableText.optional hv "icon_url" kept_none)
  refine .seq ?_ (stable_nullableText.optional hv "license_url" kept_none)
  refine .seq ?_ (stable_text.required hv "license")
  refine .seq ?_ (stable_texts.optional hv "additional_categories" kept_nil)
  refine .seq ?_ (stable_texts.optional hv "categories" kept_nil)
  refine .seq ?_ (stable_nullableText.optional hv "slug" kept_none)
  refine .seq ?_ (stable_text.optional hv "summary" ⟨Json.within_str _, rfl⟩)
  refine .seq ?_ (stable_text.required hv "name")
  refine .map (stable_integer.required hv "id") ?_
  intro _ hid _ hname _ hsummary _ hslug _ hcategories _ hadditionalCategories _ hlicense _
    hlicenseUrl _ hiconUrl _ hcolor _ hteamId _ horganizationId _ hthreadId _ hstatus _
    hrequestedStatus _ hfollows _ hdownloads _ happrovedAt _ hpublishedAt _ hupdatedAt _ hqueuedAt
    _ hmonetizationStatus _ hprojectTypes _ hgames _ hlinks _ hgalleryItems _ hversionIds
  refine ⟨Json.within_obj.2 ?_, (restores _).readBack⟩
  simp only [List.forall_mem_cons]
  exact ⟨hid.within, hname.within, hsummary.within, hslug.within, hcategories.within,
    hadditionalCategories.within, hlicense.within, hlicenseUrl.within, hiconUrl.within,
    hcolor.within, hteamId.within, horganizationId.within, hthreadId.within, hstatus.within,
    hrequestedStatus.within, hfollows.within, hdownloads.within, happrovedAt.within,
    hpublishedAt.within, hupdatedAt.within, hqueuedAt.within, hmonetizationStatus.within,
    hprojectTypes.within, hgames.within, hlinks.within, hgalleryItems.within, hversionIds.within,
    nofun⟩

/-! ### Versions -/

theorem stable_fieldType : Stable LoaderField.readType fun t => .str t.name :=
  stable_of_restores restores_fieldType fun _ _ => Json.within_str _

theorem LoaderField.stable : Stable ofJson toJson := by
  refine Stable.object (fun a h => by cases h) fun hv => ?_
  refine .seq ?_ (stable_any.required hv "value")
  refine .seq ?_ (stable_fieldType.required hv "field_type")
  refine .seq ?_ (stable_text.required hv "field_name")
  refine .map (stable_integer.required hv "field_id") ?_
  intro _ hfieldId _ hfieldName _ hfieldType _ hvalue
  refine ⟨Json.within_obj.2 ?_, ofJson_toJson (Checked.ok.inj hvalue.readBack)⟩
  simp only [List.forall_mem_cons]
  exact ⟨hfieldId.within, hfieldName.within, hfieldType.within, hvalue.within, nofun⟩

theorem Version.stable : Stable ofJson toJson := by
  refine Stable.object (fun a h => by cases h) fun hv => ?_
  refine .seq ?_ (LoaderField.stable.list.optional hv "version_fields" kept_nil)
  refine .seq ?_ (stable_texts.optional hv "project_types" kept_nil)
  refine .seq ?_ (stable_texts.optional hv "loaders" kept_nil)
  refine .seq ?_ (stable_text.required hv "status")
  refine .seq ?_ (stable_integer.required hv "project_id")
  refine .map (stable_integer.required hv "id") ?_
  intro _ hid _ hprojectId _ hstatus _ hloaders _ hprojectTypes _ hversionFields
  refine ⟨Json.within_obj.2 ?_, ofJson_toJson hversionFields.readBack⟩
  simp only [List.forall_mem_cons]
  exact ⟨hid.within, hprojectId.within, hstatus.within, hloaders.within, hprojectTypes.within,
    hversionFields.within, nofun⟩

end CatalogSearch
