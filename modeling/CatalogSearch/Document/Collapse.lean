import CatalogSearch.Json.Printer

/-!
# Collapsing runs of equal values

Two values are equal to `collapse` if their canonical texts are, so that `1`, `1.0` and `true` are
three values and the order of members does not count.
-/

namespace CatalogSearch.Json

/-- The values without those that equal the one before them; `last` is the text of the value
before the first, if there is one. -/
def collapseAfter (last : Option String) : List Json → List Json
  | [] => []
  | v :: vs =>
    if last = some v.canonicalText then collapseAfter last vs
    else v :: collapseAfter (some v.canonicalText) vs

/-- Each run of equal values collapsed to its first one. -/
def collapse (vs : List Json) : List Json := collapseAfter none vs

end CatalogSearch.Json
