import CatalogSearch.Data.Sorting
import CatalogSearch.Text.IntLiteral
import CatalogSearch.Text.Split

/-!
# The schedule

The indexing job runs at certain minutes of every hour, or at certain hours, or at midnight. Hours
and minutes are configured as integers with commas between them.
-/

namespace CatalogSearch

namespace Schedule

/-- The integers of the pieces that are not blank, in the order in which they stand. -/
def readPieces : List (List Char) → Except Text.IntLiteralError (List Int)
  | [] => .ok []
  | piece :: rest =>
    let stripped := Text.strip piece
    if stripped.isEmpty then readPieces rest
    else do return (← Text.readInt stripped) :: (← readPieces rest)

/-- The set of integers between the commas of a text, as an increasing list. -/
def readSet (s : String) : Except Text.IntLiteralError (List Int) :=
  (readPieces (Text.splitOn ',' s.toList)).map fun l => sortBy intLe (distinct l)

/-- The set of a setting, none for a blank one. -/
def readSetting (s : String) : Except Text.IntLiteralError (Option (List Int)) :=
  if (Text.strip s.toList).isEmpty then .ok none else (readSet s).map some

end Schedule

/-- When the job runs: at second zero of the minutes, of certain hours if any are given. -/
inductive Schedule where
  | atMinutes (minutes : List Int)
  | atHours (hours : List Int)
deriving DecidableEq

namespace Schedule

/-- The schedule of the two settings: minutes go before hours, and without either the job runs at
midnight. -/
def choose (hours minutes : Option (List Int)) : Schedule :=
  match minutes.getD [], hours.getD [] with
  | m :: ms, _ => .atMinutes (m :: ms)
  | [], h :: hs => .atHours (h :: hs)
  | [], [] => .atHours [0]

/-- The settings as they were read, and the schedule they make. -/
structure Plan where
  hours : Option (List Int)
  minutes : Option (List Int)
  schedule : Schedule
deriving DecidableEq

/-- Reads the two settings, hours first. -/
def plan (hours minutes : String) : Except Text.IntLiteralError Plan := do
  let hours ← readSetting hours
  let minutes ← readSetting minutes
  return ⟨hours, minutes, choose hours minutes⟩

end Schedule

end CatalogSearch
