import CatalogSearch.Number.Binary64

/-!
# Lengths of time

Lengths of time that are configured: a number of seconds, with or without a fraction. The two kinds
of numbers are kept apart, so that a length is shown as it was given.
-/

namespace CatalogSearch

/-- A number of seconds. -/
inductive Seconds where
  | whole (n : Int)
  | fractional (x : Binary64)
deriving DecidableEq

end CatalogSearch
