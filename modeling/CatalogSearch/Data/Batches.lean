/-!
# Batches

Cutting a list into batches of a configured size. The size may be any integer: `batches` refuses
zero, and a negative size gives no batch at all.
-/

namespace CatalogSearch

variable {α : Type}

/-- Consecutive slices of `size` elements, the last one shorter if need be. -/
def slices (size : Nat) (l : List α) : List (List α) :=
  if 0 < size ∧ 0 < l.length then l.take size :: slices size (l.drop size) else []
termination_by l.length
decreasing_by rw [List.length_drop]; omega

/-- A batch size of zero cannot be stepped by. -/
inductive BatchSizeError where
  | zero
deriving DecidableEq

/-- The text that reports a batch size of zero. -/
def BatchSizeError.message : BatchSizeError → String
  | .zero => "range() arg 3 must not be zero"

/-- The batches of a list for a size of either sign. -/
def batches (size : Int) (l : List α) : Except BatchSizeError (List (List α)) :=
  if size = 0 then .error .zero else .ok (slices size.toNat l)

end CatalogSearch
