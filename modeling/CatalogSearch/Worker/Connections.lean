import CatalogSearch.Service.Request

/-!
# Work of the worker

It asks the services and may fail, and it knows which services it is connected to; what it knows
outlives a failure.
-/

namespace CatalogSearch

/-- Which services the worker is connected to. -/
structure Connections where
  cache : Bool
  engine : Bool
deriving DecidableEq

/-- The worker before it connects to anything. -/
def Connections.none : Connections := ⟨false, false⟩

instance : Inhabited Connections := ⟨Connections.none⟩

/-- Work that asks the services, keeps the connections, and may fail. -/
abbrev Worker (ε α : Type) : Type :=
  ExceptT ε (StateT Connections (Dialogue Request Request.Reply)) α

namespace Worker

variable {ε ε' α : Type}

/-- An attempt, which leaves the connections as they are. -/
def ofAttempt (a : Attempt ε α) : Worker ε α :=
  ExceptT.mk fun c => a.run.bind fun r => .done (r, c)

/-- The work without its failing: its value or its error is the value. -/
def outcome (w : Worker ε α) : Worker ε' (Except ε α) :=
  ExceptT.mk fun c => (w.run c).bind fun rc => .done (.ok rc.1, rc.2)

/-- The work with its error put differently. -/
def withError (f : ε → ε') (w : Worker ε α) : Worker ε' α :=
  ExceptT.mk fun c => (w.run c).bind fun rc => .done (rc.1.mapError f, rc.2)

end Worker

end CatalogSearch
