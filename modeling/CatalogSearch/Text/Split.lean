/-!
# Cutting a text at a separator

`splitOn` cuts at every occurrence; the other functions give what stands before and after the first
or the last one.
-/

namespace CatalogSearch.Text

/-- The parts of a text between occurrences of a separator, at least one. -/
def splitOn (c : Char) : List Char → List (List Char)
  | [] => [[]]
  | d :: rest =>
    if d = c then [] :: splitOn c rest
    else
      match splitOn c rest with
      | part :: parts => (d :: part) :: parts
      | [] => [[d]]

/-- What stands before the first occurrence of a character, all if it does not occur. -/
def before (c : Char) (s : List Char) : List Char := s.takeWhile (· ≠ c)

/-- What stands after the first occurrence of a character, none if it does not occur. -/
def after? (c : Char) (s : List Char) : Option (List Char) := (s.dropWhile (· ≠ c)).tail?

/-- What stands after the last occurrence of a character, all if it does not occur. -/
def afterLast (c : Char) (s : List Char) : List Char := (s.reverse.takeWhile (· ≠ c)).reverse

/-- What stands before the last occurrence of a character, none if it does not occur. -/
def beforeLast? (c : Char) (s : List Char) : Option (List Char) :=
  (s.reverse.dropWhile (· ≠ c)).tail?.map List.reverse

end CatalogSearch.Text
