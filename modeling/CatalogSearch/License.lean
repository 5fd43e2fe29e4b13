/-!
# Licenses

The identifier that search shows of a license expression, and whether it is open source by a
registry of licenses that is given.
-/

namespace CatalogSearch.License

/-- What is known of license identifiers: none for an unknown one, else whether it is approved as
open source. -/
abbrev Registry := String → Option Bool

/-- The part of a license expression before its first space. -/
def primary (expression : String) : String :=
  String.ofList (expression.toList.takeWhile (· ≠ ' '))

/-- Whether an identifier is registered as open source. -/
def isOpenSource (registry : Registry) (id : String) : Bool :=
  if id = "" then false else (registry id).getD false

end CatalogSearch.License
