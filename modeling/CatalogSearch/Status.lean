import CatalogSearch.Text.Quoted

/-!
# Statuses

Statuses of projects and versions, and which of them search shows. The store keeps statuses as
texts; a version whose status is no known one is not hidden.
-/

namespace CatalogSearch

/-- The status of a project. -/
inductive ProjectStatus where
  | approved
  | archived
  | rejected
  | draft
  | unlisted
  | processing
  | withheld
  | scheduled
  | private_
  | unknown
deriving DecidableEq

namespace ProjectStatus

/-- All statuses. -/
def all : List ProjectStatus :=
  [.approved, .archived, .rejected, .draft, .unlisted, .processing, .withheld, .scheduled,
    .private_, .unknown]

/-- The text of a status. -/
def name : ProjectStatus → String
  | .approved => "approved"
  | .archived => "archived"
  | .rejected => "rejected"
  | .draft => "draft"
  | .unlisted => "unlisted"
  | .processing => "processing"
  | .withheld => "withheld"
  | .scheduled => "scheduled"
  | .private_ => "private"
  | .unknown => "unknown"

/-- Whether projects of the status may appear in search. -/
def isSearchable : ProjectStatus → Bool
  | .approved | .archived => true
  | _ => false

/-- The texts of the searchable statuses. -/
def searchable : List String := (all.filter isSearchable).map name

end ProjectStatus

/-- The status of a version. -/
inductive VersionStatus where
  | listed
  | archived
  | draft
  | unlisted
  | scheduled
  | unknown
deriving DecidableEq

namespace VersionStatus

/-- All statuses. -/
def all : List VersionStatus := [.listed, .archived, .draft, .unlisted, .scheduled, .unknown]

/-- The text of a status. -/
def name : VersionStatus → String
  | .listed => "listed"
  | .archived => "archived"
  | .draft => "draft"
  | .unlisted => "unlisted"
  | .scheduled => "scheduled"
  | .unknown => "unknown"

/-- Whether versions of the status are never indexed. -/
def isHidden : VersionStatus → Bool
  | .listed | .archived => false
  | _ => true

/-- The texts of the hidden statuses. -/
def hidden : List String := (all.filter isHidden).map name

end VersionStatus

/-- A text that is no status. -/
inductive StatusError where
  | project (text : String)
  | version (text : String)
deriving DecidableEq

/-- The text that reports it. -/
def StatusError.message : StatusError → String
  | .project text => Text.quotedString text ++ " is not a valid ProjectStatus"
  | .version text => Text.quotedString text ++ " is not a valid VersionStatus"

/-- The project status of a text. -/
def ProjectStatus.ofText (s : String) : Except StatusError ProjectStatus :=
  match all.find? (fun t => t.name == s) with
  | some t => .ok t
  | none => .error (.project s)

/-- The version status of a text. -/
def VersionStatus.ofText (s : String) : Except StatusError VersionStatus :=
  match all.find? (fun t => t.name == s) with
  | some t => .ok t
  | none => .error (.version s)

end CatalogSearch
