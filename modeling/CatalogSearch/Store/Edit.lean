import CatalogSearch.Data.Sorting
import CatalogSearch.Store

/-!
# Writing to the store

Rows are given by their cells under the names of columns. A table refuses a row that leaves out what
it needs, and two rows that agree on a key; a key with null in it is free. References between tables
are not checked, and nothing follows a deleted row.
-/

namespace CatalogSearch.Store

/-- Cells under the names of their columns. -/
abbrev Cells := List (String × Cell)

/-- A row lacks what its table needs, or agrees with another row on a key. -/
inductive IntegrityError where
  | refused
deriving DecidableEq

variable {ρ : Type} [Row ρ]

/-- What a row holds in the columns of a key, none if one of them is null. -/
def keyOf (columns : List String) (r : ρ) : Option (List Cell) :=
  let cs := columns.map (Row.cell r)
  if cs.contains .null then none else some cs

/-- Whether no two rows agree on a key. -/
def keysDiffer (rows : List ρ) : Bool :=
  (Row.keys ρ).all fun columns =>
    let ks := rows.filterMap (keyOf columns)
    (distinct ks).length == ks.length

/-- The number after the largest one in a column, one in an empty table. -/
def nextNumber (column : String) (rows : List ρ) : Int :=
  match rows.filterMap (fun r => (Row.cell r column).toInt?) with
  | [] => 1
  | n :: ns => ns.foldl max n + 1

/-- What a new row holds in a column. -/
def newCell (rows : List ρ) (given : Cells) (column : Column) : Cell :=
  match given.lookup column.name, column.omitted with
  | some .null, .nextNumber | none, .nextNumber => .int (nextNumber column.name rows)
  | some c, _ => column.type.keep c
  | none, .value c => c
  | none, .null => .null

/-- A table with a row added, if the row has what it needs. -/
def addRow (rows : List ρ) (given : Cells) : Option (List ρ) :=
  (Row.ofCells? ((Row.columns ρ).map (newCell rows given))).map (fun r => rows ++ [r])

/-- A table with rows added one after the other. -/
def addRows (rows : List ρ) : List Cells → Option (List ρ)
  | [] => some rows
  | given :: rest => (addRow rows given).bind (addRows · rest)

/-- Whether a row holds the given cells. -/
def satisfies (given : Cells) (r : ρ) : Bool :=
  (Row.columns ρ).all fun column =>
    match given.lookup column.name with
    | some c => Row.cell r column.name = column.type.sought c
    | none => true

/-- A row with the given cells in place of its own, if it is still one. -/
def changed (given : Cells) (r : ρ) : Option ρ :=
  Row.ofCells? ((Row.columns ρ).map fun column =>
    match given.lookup column.name with
    | some c => column.type.keep c
    | none => Row.cell r column.name)

/-- A table with the given cells written into the rows that hold the others. -/
def changeRows (held given : Cells) : List ρ → Option (List ρ)
  | [] => some []
  | r :: rest => do
    let r ← if satisfies held r then changed given r else some r
    return r :: (← changeRows held given rest)

/-- The rows of a table if their keys differ. -/
def checked (rows : Option (List ρ)) : Except IntegrityError (List ρ) :=
  match rows with
  | some rows => if keysDiffer rows then .ok rows else .error .refused
  | none => .error .refused

/-- The store with rows added to several tables, all of them or none. -/
def insert (s : Store) : List (Table × List Cells) → Except IntegrityError Store
  | [] => .ok s
  | (t, given) :: rest => do
    let rows ← checked (addRows (s.rows t) given)
    (s.setRows t rows).insert rest

/-- The store with the given cells written into the rows of a table that hold the others, and how
many these are. -/
def update (s : Store) (t : Table) (held given : Cells) : Except IntegrityError (Store × Nat) := do
  let rows ← checked (changeRows held given (s.rows t))
  return (s.setRows t rows, ((s.rows t).filter (satisfies held)).length)

/-- The store without the rows of a table that hold the given cells, and how many these were. -/
def delete (s : Store) (t : Table) (held : Cells) : Store × Nat :=
  (s.setRows t ((s.rows t).filter (fun r => !satisfies held r)),
    ((s.rows t).filter (satisfies held)).length)

end CatalogSearch.Store
