import CatalogSearch.Data.OrderedMap
import CatalogSearch.Json

/-!
# Categories

The categories of a document. Loaders are shown as categories, and the loaders of a modpack take the
place of the category `mrpack` (`withModpackLoaders`).
-/

namespace CatalogSearch.Categories

/-- The categories shown to users. -/
def displayed (categories loaders : List String) : List String := categories ++ loaders

/-- The categories that search filters by. -/
def searched (categories loaders additional : List String) : List String :=
  displayed categories loaders ++ additional

/-- The texts among values. -/
def texts (vs : List Json) : List String :=
  vs.filterMap fun
    | .str s => some s
    | _ => none

/-- The categories with the loaders of a modpack in place of `mrpack`, if it names its loaders. -/
def withModpackLoaders (categories : List String) (fields : OrderedMap String (List Json)) :
    List String :=
  match fields.find? "mrpack_loaders" with
  | none => categories
  | some vs => (categories ++ texts vs).filter (· ≠ "mrpack")

end CatalogSearch.Categories
