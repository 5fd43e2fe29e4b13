import CatalogSearch.Data.Sorting

/-!
# Checked readings

Results of reading a value of a schema: the value, or all places where the input is wrong. Readings
are put together with `<$>` and `<*>`, which keep the wrong places of both sides.
-/

namespace CatalogSearch

/-- A place inside a value: the names and positions on the way to it, none for the value itself. -/
abbrev Place := List String

/-- A value, or the places where the input is wrong. -/
inductive Checked (α : Type) where
  | ok (a : α)
  | wrong (places : List Place)
deriving DecidableEq

namespace Checked

variable {α β : Type}

/-- Applies a read function to a read argument. -/
def apply (f : Checked (α → β)) (x : Checked α) : Checked β :=
  match f, x with
  | .ok f, .ok a => .ok (f a)
  | .ok _, .wrong e => .wrong e
  | .wrong e, .ok _ => .wrong e
  | .wrong e, .wrong e' => .wrong (e ++ e')

/-- Applies a function to a read value. -/
def map (f : α → β) : Checked α → Checked β
  | .ok a => .ok (f a)
  | .wrong e => .wrong e

instance : Functor Checked where
  map := map

instance : Pure Checked where
  pure := .ok

instance : Seq Checked where
  seq f x := apply f (x ())

@[simp] theorem map_ok (f : α → β) (a : α) : f <$> (ok a : Checked α) = ok (f a) := rfl

@[simp] theorem ok_seq_ok (f : α → β) (a : α) : (ok f : Checked (α → β)) <*> ok a = ok (f a) := rfl

/-- The reading of a part under a name. -/
def under (name : String) : Checked α → Checked α
  | .ok a => .ok a
  | .wrong e => .wrong (e.map (name :: ·))

@[simp] theorem under_ok (name : String) (a : α) : (ok a : Checked α).under name = ok a := rfl

/-- The value itself is wrong. -/
def refused : Checked α := .wrong [[]]

/-- The value of an attempt, or the value itself is wrong. -/
def ofOption : Option α → Checked α
  | some a => .ok a
  | none => refused

/-- The value, if there is one. -/
def toOption : Checked α → Option α
  | .ok a => some a
  | .wrong _ => none

end Checked

/-- Places as texts joined by dots, in order and without repetitions. -/
def placeTexts (places : List Place) : List String :=
  distinct (sortBy textLe (places.map (".".intercalate ·)))

end CatalogSearch
