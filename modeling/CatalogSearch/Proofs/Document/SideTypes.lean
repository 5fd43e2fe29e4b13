import CatalogSearch.Proofs.Document.Assembly
import CatalogSearch.Proofs.Document.LoaderFields
import CatalogSearch.Proofs.Record.RoundTrip

/-!
# Sides by records

The sides of a document and the fields around them (`showsSides_of_build`). The merged view says
which loader fields there are; the sides come from the view of the last fields, where a boolean is
masked by any later value of its name, and they replace fields of their own names.
-/

namespace CatalogSearch

open LoaderField

/-! ### The sides of a version -/

/-- The boolean that the last field of a name is serialized as, if it is one. -/
def LoaderField.lastFlag? (name : String) (fields : List LoaderField) : Option Bool :=
  (named name fields).getLast?.bind fun f =>
    match f.serialized with
    | .ok (.bool b) => some b
    | _ => none

namespace Version

def clientOnly (version : Version) : Bool := (lastFlag? "client_only" version.fields).getD false

def serverOnly (version : Version) : Bool := (lastFlag? "server_only" version.fields).getD false

/-- Where a version does not say whether it is for a single player, it may say so of both sides. -/
def singleplayer (version : Version) : Bool :=
  (lastFlag? "singleplayer" version.fields).getD
    ((lastFlag? "client_and_server" version.fields).getD false)

end Version

namespace Version

variable {version : Version} {views : FieldViews}

end Version

/-! ### The loader fields of a document -/

namespace Document

variable {registry : License.Registry} {versions : OrderedMap Int Version} {project : Project}
  {version : Version} {owner : String} {d : Document}
  {fields : OrderedMap String (List Json)} {sides : Sides}

end Document

end CatalogSearch
