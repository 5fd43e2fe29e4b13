import CatalogSearch.Json.Printer

/-!
# Captions

Short captions of the entities in the store: the name of the kind, and a few of its attributes.
-/

namespace CatalogSearch.Store

/-- The kinds of entities that have captions, and the attributes shown. -/
def captionAttributes : List (String × List String) := [
  ("Project", ["id", "slug", "status"]),
  ("Category", ["id", "category"]),
  ("LoaderField", ["id", "field", "field_type"]),
  ("Team", ["id"]),
  ("TeamMember", ["team_id", "user_id", "is_owner", "accepted"]),
  ("Organization", ["id", "slug"]),
  ("User", ["id", "username"]),
  ("Version", ["id", "mod_id", "status"]),
  ("Loader", ["id", "loader"])]

mutual

/-- A value as a caption shows it inside another one: texts stand in quotes. -/
def nestedCaption : Json → List Char
  | .null => "None".toList
  | .bool true => "True".toList
  | .bool false => "False".toList
  | .int n => Decimal.ofInt n
  | .float x => if x.isFinite then x.text else (Json.specialName x).map Char.toLower
  | .str s => Text.quoted s.toList
  | .arr vs => '[' :: (elementsCaption vs ++ [']'])
  | .obj ms => '{' :: (membersCaption ms ++ ['}'])

/-- Values with commas between them. -/
def elementsCaption : List Json → List Char
  | [] => []
  | [v] => nestedCaption v
  | v :: vs => nestedCaption v ++ ',' :: ' ' :: elementsCaption vs

/-- Members with commas between them. -/
def membersCaption : List (String × Json) → List Char
  | [] => []
  | [(k, v)] => Text.quoted k.toList ++ ':' :: ' ' :: nestedCaption v
  | (k, v) :: ms =>
    Text.quoted k.toList ++ ':' :: ' ' :: (nestedCaption v ++ ',' :: ' ' :: membersCaption ms)

end

/-- A value as a caption shows it: a text stands as it is. -/
def caption : Json → String
  | .str s => s
  | v => String.ofList (nestedCaption v)

/-- The caption of an entity of the named kind, none if the kind has no captions. -/
def caption? (kind : String) (attributes : List (String × Json)) : Option String :=
  (captionAttributes.lookup kind).map fun names =>
    let shown := names.map fun name =>
      name ++ "=" ++ caption ((attributes.lookup name).getD .null)
    "<" ++ kind ++ "(" ++ ", ".intercalate shown ++ ")>"

end CatalogSearch.Store
