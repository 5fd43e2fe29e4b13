import CatalogSearch.Time.Reader

/-!
# Cells and columns

A column of a table of the store has a type, may allow null, and may have a value for rows that
leave it out.
-/

namespace CatalogSearch.Store

/-- A value in a table. -/
inductive Cell where
  | null
  | int (n : Int)
  | text (s : String)
  | bool (b : Bool)
  | moment (t : Moment)
deriving DecidableEq

namespace Cell

/-- The integer of a cell. -/
def toInt? : Cell → Option Int
  | .int n => some n
  | _ => none

/-- The text of a cell. -/
def toText? : Cell → Option String
  | .text s => some s
  | _ => none

/-- The truth value of a cell. -/
def toBool? : Cell → Option Bool
  | .bool b => some b
  | _ => none

/-- The moment of a cell. -/
def toMoment? : Cell → Option Moment
  | .moment t => some t
  | _ => none

/-- What a cell of a column that allows null holds, none if it holds a value of another type. -/
def nullable {α : Type} (get? : Cell → Option α) : Cell → Option (Option α)
  | .null => some none
  | c => (get? c).map some

/-- A cell of a value that may be missing. -/
def ofOption {α : Type} (cell : α → Cell) : Option α → Cell
  | some a => cell a
  | none => .null

end Cell

/-- The type of the cells of a column. -/
inductive ColumnType where
  | int
  | text
  | bool
  | moment
deriving DecidableEq

/-- A cell as it is looked for in a column of the type: truth values and the integers zero and one
stand for each other. A text is no moment, so a column of moments is searched for null only. -/
def ColumnType.sought : ColumnType → Cell → Cell
  | .bool, .int n => if n = 0 then .bool false else if n = 1 then .bool true else .int n
  | .int, .bool b => .int (if b then 1 else 0)
  | _, c => c

/-- A cell as a column of the type keeps it: as it is looked for, and a moment may be given as a
text. -/
def ColumnType.keep : ColumnType → Cell → Cell
  | .moment, .text s => Cell.ofOption .moment (Moment.ofText? s.toList)
  | t, c => t.sought c

/-- What a column holds in a row that leaves it out. -/
inductive Omitted where
  | null
  | value (c : Cell)
  | nextNumber
deriving DecidableEq

/-- A column of a table. -/
structure Column where
  name : String
  type : ColumnType
  omitted : Omitted

/-- How rows of one kind are kept as cells: their columns in order, the two directions between a
row and its cells, and the sets of columns that no two rows may agree on. A list of cells of wrong
types, or with null where the row needs a value, is no row. -/
class Row (ρ : Type) where
  columns : List Column
  cells : ρ → List Cell
  ofCells? : List Cell → Option ρ
  keys : List (List String)

/-- The cell of a row in a column, null in a column that it does not have. -/
def Row.cell {ρ : Type} [Row ρ] (r : ρ) (column : String) : Cell :=
  (((Row.columns ρ).map Column.name).zip (Row.cells r)).lookup column |>.getD .null

end CatalogSearch.Store
