import CatalogSearch.Data.OrderedMap
import CatalogSearch.Json

/-!
# Sides

Whether a project runs on the client and on the server. Some project types settle it
(`Sides.fixed?`); for the others it follows from four boolean loader fields.
-/

namespace CatalogSearch

/-- How far one side is supported. -/
inductive SideType where
  | required
  | optional
  | unsupported
  | unknown
deriving DecidableEq

/-- The text of a side type. -/
def SideType.name : SideType → String
  | .required => "required"
  | .optional => "optional"
  | .unsupported => "unsupported"
  | .unknown => "unknown"

/-- The side types of client and server. -/
structure Sides where
  client : SideType
  server : SideType
deriving DecidableEq

/-- The project type that stands for a version: its first one. -/
def mainProjectType (projectTypes : List String) : String := projectTypes.head?.getD "project"

/-- The project type under which earlier searches knew it: data packs and plugins were mods. -/
def legacyProjectType (projectTypes : List String) : String :=
  let type := mainProjectType projectTypes
  if type = "datapack" ∨ type = "plugin" then "mod" else type

namespace Sides

/-- The sides that a project type settles. -/
def fixed? : String → Option Sides
  | "plugin" => some ⟨.unsupported, .required⟩
  | "datapack" => some ⟨.optional, .required⟩
  | "shader" => some ⟨.required, .unsupported⟩
  | "resourcepack" => some ⟨.required, .unsupported⟩
  | _ => none

/-- The sides that follow from where a version can run. -/
def ofEnvironment (singleplayer clientOnly serverOnly : Bool) : Sides :=
  match clientOnly, serverOnly with
  | true, true => ⟨.optional, .optional⟩
  | true, false => ⟨.required, .unsupported⟩
  | false, true => ⟨.unsupported, .required⟩
  | false, false => if singleplayer then ⟨.required, .required⟩ else ⟨.unknown, .unknown⟩

/-- The boolean value of a field; a field with another value counts as missing. -/
def flag? (raw : OrderedMap String Json) (name : String) : Option Bool :=
  match raw.find? name with
  | some (.bool b) => some b
  | _ => none

/-- The sides of a version by its fields and, where known, its project type. -/
def ofFields (raw : OrderedMap String Json) (projectType : Option String) : Sides :=
  match projectType.bind fixed? with
  | some sides => sides
  | none =>
    let singleplayer := (flag? raw "singleplayer").getD ((flag? raw "client_and_server").getD false)
    ofEnvironment singleplayer ((flag? raw "client_only").getD false)
      ((flag? raw "server_only").getD false)

end Sides

end CatalogSearch
