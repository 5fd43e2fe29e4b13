import CatalogSearch.Text.Quoted

/-!
# Field types

The types of loader fields: a kind of value, or lists of a kind. `ofName?` looks a type up by its
name; `ofName?_name` and `ofName?_eq_some` say that it finds this type and no other.
-/

namespace CatalogSearch

/-- What a loader field holds: an integer, a text, a value of an enumeration or a boolean. -/
inductive FieldKind where
  | integer
  | text
  | enum
  | boolean
deriving DecidableEq

/-- The type of a loader field: one value of a kind, or a list of them. -/
structure FieldType where
  isArray : Bool
  kind : FieldKind
deriving DecidableEq

namespace FieldType

/-- All field types. -/
def all : List FieldType :=
  [⟨false, .integer⟩, ⟨false, .text⟩, ⟨false, .enum⟩, ⟨false, .boolean⟩,
    ⟨true, .integer⟩, ⟨true, .text⟩, ⟨true, .enum⟩, ⟨true, .boolean⟩]

/-- The name of a kind. -/
def kindName : FieldKind → String
  | .integer => "integer"
  | .text => "text"
  | .enum => "enum"
  | .boolean => "boolean"

/-- The name of a field type. -/
def name (t : FieldType) : String := (if t.isArray then "array_" else "") ++ kindName t.kind

/-- The field type of a name. -/
def ofName? (s : String) : Option FieldType := all.find? (fun t => t.name == s)

theorem ofName?_name (t : FieldType) : ofName? t.name = some t := by
  obtain ⟨isArray, kind⟩ := t
  cases isArray <;> cases kind <;> decide

theorem ofName?_eq_some {s : String} {t : FieldType} : ofName? s = some t ↔ s = t.name := by
  constructor
  · intro h
    rw [ofName?] at h
    have hname := List.find?_some h
    exact (eq_of_beq hname).symm
  · rintro rfl
    exact t.ofName?_name

theorem name_injective {t t' : FieldType} (h : t.name = t'.name) : t = t' :=
  Option.some.inj (t.ofName?_name.symm.trans (ofName?_eq_some.2 h))

theorem isSome_ofName? {s : String} : (ofName? s).isSome ↔ ∃ t : FieldType, s = t.name := by
  rw [Option.isSome_iff_exists]
  exact exists_congr fun _ => ofName?_eq_some

/-- Whether the values are booleans. -/
def isBoolean (t : FieldType) : Bool := t.kind = .boolean

/-- A name that no field type has. -/
structure Unknown where
  name : String
deriving DecidableEq

/-- The text that reports it. -/
def Unknown.message (e : Unknown) : String :=
  Text.quotedString e.name ++ " is not a valid LoaderFieldType"

/-- The field type of a name, or that there is none. -/
def ofName (s : String) : Except Unknown FieldType :=
  match ofName? s with
  | some t => .ok t
  | none => .error ⟨s⟩

end FieldType

end CatalogSearch
