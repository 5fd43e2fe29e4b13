import CatalogSearch.Proofs.Document.ReadBack

/-!
# Round trips of records and documents

What records and documents are written as is read as the same records and documents
(`roundTrips_of_text`). A text may spell their fields in many ways and leave some of them out; the
text that is written of what was read has one spelling for everything, and stays what it is when it
is read and written again.
-/

namespace CatalogSearch

open Schema

/-- The text that is written of a value is read as the value, and this is written as the text. -/
structure RoundTrips {α : Type} (read : Json → Checked α) (write : α → Json) (a : α) : Prop where
  reads : ofText read (write a).print = .ok a
  rewrites : (fun a' => (write a').print) <$> ofText read (write a).print = .ok (write a).print

theorem Schema.Kept.roundTrips {α : Type} {read : Json → Checked α} {write : α → Json} {a : α}
    (h : Kept read write Json.Limits.narrow.depth a) (ha : (write a).Finite) :
    RoundTrips read write a where
  reads := h.ofText_print ha
  rewrites := by rw [h.ofText_print ha, Checked.map_ok]

/-- A document that was read is read again as it is written, so as itself if its numbers are
finite. -/
theorem Document.kept_of_text {s : String} {d : Document} (hs : ofText ofJson s = .ok d)
    (hfinite : ∀ e ∈ d.loaderFields.entries, ∀ v ∈ e.2, v.Finite) :
    Kept ofJson toJson Json.Limits.narrow.depth d := by
  obtain ⟨hwithin, hkeys⟩ := satisfies_ofText (fun _ => satisfies_ofJson) s d hs
  have hread := ofJson_toJson hkeys
  rw [written_eq hfinite] at hread
  exact ⟨hwithin, hread⟩

/-- Every project, version and document that a text is read as round-trips, all of its moments,
integers and untyped values included, if the floating-point numbers in it are finite. -/
theorem roundTrips_of_text (s : String) :
    (∀ p, ofText Project.ofJson s = .ok p → RoundTrips Project.ofJson Project.toJson p) ∧
    (∀ v, ofText Version.ofJson s = .ok v → (∀ f ∈ v.fields, f.value.Finite) →
      RoundTrips Version.ofJson Version.toJson v) ∧
    (∀ d, ofText Document.ofJson s = .ok d →
      (∀ e ∈ d.loaderFields.entries, ∀ v ∈ e.2, v.Finite) →
      RoundTrips Document.ofJson Document.toJson d) := by
  refine ⟨fun p hp => ?_, fun v hv hfinite => ?_, fun d hd hfinite => ?_⟩
  · exact (Project.stable.kept_of_text hp).roundTrips (Project.restores p).floatless.allFloats
  · exact (Version.stable.kept_of_text hv).roundTrips (Version.allFloats_toJson hfinite)
  · exact (Document.kept_of_text hd hfinite).roundTrips d.finite_toJson

/-! ### Samples -/

def sampleProject : Project :=
  { id := 7, name := "Atlas", summary := "", slug := none, categories := [],
    additionalCategories := [], license := "MIT", licenseUrl := none, iconUrl := none,
    color := none, teamId := 1, organizationId := none, threadId := 3, status := "approved",
    requestedStatus := none, follows := 0, downloads := 0,
    approvedAt := some ⟨⟨2023, 11, 14, by decide⟩, ⟨22, 13, 20, 0, by decide⟩, some .zero⟩,
    publishedAt := ⟨⟨2024, 5, 6, by decide⟩, ⟨7, 8, 9, 1, by decide⟩, some ⟨120, by decide⟩⟩,
    updatedAt := ⟨⟨2024, 5, 6, by decide⟩, ⟨7, 8, 0, 0, by decide⟩, none⟩, queuedAt := none,
    monetizationStatus := "", projectTypes := [], games := [], links := .ofList [("wiki", "w")],
    galleryItems := [], versionIds := [5] }

/-- The text of an object of fields whose values stand in text. -/
def objectText (fields : List (String × List Char)) : List Char :=
  '{' :: (List.intercalate [','] (fields.map fun f => '"' :: f.1.toList ++ '"' :: ':' :: f.2) ++
    ['}'])

/-- The text of a version with integers of other kinds, fields left out and a key that comes
again. -/
def sampleVersionText : List Char := objectText [
  ("id", "\" 0_7.00\"".toList), ("project_id", "true".toList), ("status", "\"\"".toList),
  ("version_fields", '[' :: objectText [
    ("field_id", "1.0".toList), ("field_name", "\"\"".toList),
    ("field_type", "\"array_enum\"".toList),
    ("value", objectText [("k", "null".toList), ("k", "[true, 1, 1.0, -0e5]".toList)])] ++ [']'])]

def sampleVersion : Version :=
  { id := 7, projectId := 1, status := "", loaders := [], projectTypes := [],
    fields := [⟨1, "", ⟨true, .enum⟩, .obj [("k", .arr [.bool true, .int 1,
      .float (.ofDecimal false 1 0), .float (.ofDecimal true 0 0)])]⟩] }

def sampleDocument : Document :=
  { versionId := "a", projectId := "b", name := "", summary := "", categories := [],
    displayCategories := ["x"], follows := 1, downloads := 2, iconUrl := none, author := "",
    dateCreated := ⟨⟨2023, 11, 14, by decide⟩, ⟨22, 13, 20, 123000, by decide⟩, some .zero⟩,
    createdTimestamp := 0,
    dateModified := ⟨⟨2024, 5, 6, by decide⟩, ⟨7, 8, 9, 1, by decide⟩, some ⟨120, by decide⟩⟩,
    modifiedTimestamp := 0, license := "", licenseUrl := none, openSource := true, slug := none,
    projectTypes := [], gallery := [], featuredGallery := none, color := none,
    loaderFields := .ofList [("f", [.int 1, .float (.ofDecimal false 1 0), .bool true])],
    monetizationStatus := none, teamId := "", organizationId := none, threadId := "",
    versions := [], datePublished := ⟨⟨2024, 5, 6, by decide⟩, ⟨7, 8, 0, 0, by decide⟩, none⟩,
    dateQueued := none, status := "", requestedStatus := none, games := [],
    links := .ofList [("a", "2")], galleryItems := [], loaders := [] }

theorem finite_sampleVersion : ∀ f ∈ sampleVersion.fields, f.value.Finite := by
  simp only [sampleVersion, List.forall_mem_singleton]
  refine .obj (List.forall_mem_singleton.2 (.arr ?_))
  simp only [List.forall_mem_cons]
  exact ⟨.bool _, .int _, .float (by decide +kernel), .float (by decide +kernel), nofun⟩

theorem finite_sampleDocument :
    ∀ e ∈ sampleDocument.loaderFields.entries, ∀ v ∈ e.2, v.Finite := by
  have hentries : sampleDocument.loaderFields.entries =
    [("f", [.int 1, .float (.ofDecimal false 1 0), .bool true])] := by decide +kernel
  simp only [hentries, List.forall_mem_cons]
  exact ⟨⟨.int _, .float (by decide +kernel), .bool _, nofun⟩, nofun⟩

theorem roundTrips_samples :
    RoundTrips Project.ofJson Project.toJson sampleProject ∧
    (ofText Version.ofJson (String.ofList sampleVersionText) = .ok sampleVersion ∧
      RoundTrips Version.ofJson Version.toJson sampleVersion) ∧
    RoundTrips Document.ofJson Document.toJson sampleDocument := by
  have hproject : ofText Project.ofJson sampleProject.toJson.print = .ok sampleProject :=
    Kept.ofText_print ⟨by unfold Json.Within; decide +kernel, (Project.restores _).readBack⟩
      (Project.restores _).floatless.allFloats
  have hversion : ofText Version.ofJson (String.ofList sampleVersionText) = .ok sampleVersion := by
    simp only [ofText, Json.readWithin?, String.toList_ofList]
    decide +kernel
  have hkeys : sampleDocument.KeysOnce := by unfold Document.KeysOnce; decide +kernel
  have hread : Document.ofJson sampleDocument.toJson = .ok sampleDocument := by
    rw [Document.ofJson_toJson hkeys, Document.written_eq finite_sampleDocument]
  have hdocument : ofText Document.ofJson sampleDocument.toJson.print = .ok sampleDocument :=
    Kept.ofText_print ⟨by unfold Json.Within; decide +kernel, hread⟩ sampleDocument.finite_toJson
  exact ⟨(roundTrips_of_text _).1 _ hproject,
    ⟨hversion, (roundTrips_of_text _).2.1 _ hversion finite_sampleVersion⟩,
    (roundTrips_of_text _).2.2 _ hdocument finite_sampleDocument⟩

end CatalogSearch
