import CatalogSearch.Schema.Scalar

/-!
# Gallery images

Images in the gallery of a project. `GalleryImage.split` gives those that are not featured, and the
first featured one.
-/

namespace CatalogSearch

/-- An image of a project. -/
structure GalleryImage where
  imageUrl : String
  featured : Bool
  name : Option String
  description : Option String
  created : Moment
  ordering : Int
deriving DecidableEq

namespace GalleryImage

/-- Reads an image. -/
def ofJson : Json → Checked GalleryImage :=
  Schema.object fun v =>
    GalleryImage.mk
      <$> Schema.required v "image_url" Schema.text
      <*> Schema.optional v "featured" false Schema.boolean
      <*> Schema.optional v "name" none (Schema.nullable Schema.text)
      <*> Schema.optional v "description" none (Schema.nullable Schema.text)
      <*> Schema.required v "created" Schema.moment
      <*> Schema.optional v "ordering" 0 Schema.integer

/-- Writes an image. -/
def toJson (g : GalleryImage) : Json :=
  .obj [
    ("image_url", .str g.imageUrl),
    ("featured", .bool g.featured),
    ("name", Schema.ofNullable .str g.name),
    ("description", Schema.ofNullable .str g.description),
    ("created", Schema.ofMoment g.created),
    ("ordering", .int g.ordering)]

/-- The images that are not featured, and the first featured one. -/
def split (items : List GalleryImage) : List String × Option String :=
  ((items.filter (fun g => !g.featured)).map (·.imageUrl),
    (items.find? (·.featured)).map (·.imageUrl))

end GalleryImage

end CatalogSearch
