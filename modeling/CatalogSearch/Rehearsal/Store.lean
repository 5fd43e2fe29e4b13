import CatalogSearch.Service.Request

/-!
# A store in memory

It can be told to fail after a number of queries.
-/

namespace CatalogSearch.Store

/-- A failure to come: how many queries are answered before it, and its message. -/
structure Outage where
  after : Nat
  message : String
deriving DecidableEq

/-- The rows of a store, and the failure to come. -/
structure Memory where
  rows : Store
  outage : Option Outage

namespace Memory

/-- A new store. -/
def empty : Memory := ⟨.empty, none⟩

/-- Answers a query. -/
def answer (q : Query) (m : Memory) : Except Failure q.Answer × Memory :=
  match m.outage with
  | none => (.ok (m.rows.answer q), m)
  | some ⟨0, message⟩ => (.error ⟨message⟩, m)
  | some ⟨n + 1, message⟩ => (.ok (m.rows.answer q), { m with outage := some ⟨n, message⟩ })

end Memory

end CatalogSearch.Store
