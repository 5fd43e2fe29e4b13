import CatalogSearch.Data.OrderedMap
import CatalogSearch.Engine.Call

/-!
# A search engine in memory

Every task is done at once, also one that is said to have failed. The engine logs the calls; a
script says which of them fail and how tasks end.
-/

namespace CatalogSearch.Engine

/-- A kind of call. -/
inductive CallKind where
  | connect
  | close
  | health
  | deleteIndex
  | createIndex
  | getIndex
  | stats
  | searchable
  | filterable
  | sortable
  | distinctBy
  | addDocuments
  | swap
  | wait
deriving DecidableEq

/-- The kind of the call that makes a setting. -/
def IndexSetting.kind : IndexSetting → CallKind
  | .searchable _ => .searchable
  | .filterable _ => .filterable
  | .sortable _ => .sortable
  | .distinctBy _ => .distinctBy

/-- The kind of a call. -/
def Call.kind : Call → CallKind
  | .connect _ _ _ => .connect
  | .close => .close
  | .health => .health
  | .deleteIndex _ => .deleteIndex
  | .createIndex _ _ => .createIndex
  | .getIndex _ => .getIndex
  | .stats _ => .stats
  | .configure _ setting => setting.kind
  | .addDocuments _ _ _ => .addDocuments
  | .swap _ => .swap
  | .wait _ _ => .wait

/-- An index: its primary key, the settings made, the last of each kind, and its documents. -/
structure Index where
  primaryKey : String
  settings : List IndexSetting
  documents : List Payload

namespace Index

/-- An index with a setting made. -/
def configure (i : Index) (setting : IndexSetting) : Index :=
  { i with settings := i.settings.filter (·.kind ≠ setting.kind) ++ [setting] }

/-- An index with documents added. -/
def add (i : Index) (documents : List Payload) : Index :=
  { i with documents := i.documents ++ documents }

end Index

/-- Calls that fail: all of a kind, or one of them, counted from one. -/
structure Failing where
  kind : CallKind
  nth : Option Nat
  fault : Fault
deriving DecidableEq

/-- Which calls fail, and how some tasks end. Tasks that are not listed succeed. -/
structure Script where
  failing : List Failing
  statuses : List (Nat × String)

/-- The script in which nothing fails. -/
def Script.empty : Script := ⟨[], []⟩

/-- What the engine holds, its script, the kinds of the calls under the script and the number of
tasks, and the calls not yet looked at. -/
structure Memory where
  indexes : OrderedMap String Index
  script : Script
  made : List CallKind
  tasks : Nat
  log : List Call

namespace Memory

/-- A new search engine. -/
def empty : Memory := ⟨∅, .empty, [], 0, []⟩

/-- The engine with a new script, under which calls and tasks are counted anew. -/
def follow (m : Memory) (script : Script) : Memory :=
  { m with script := script, made := [], tasks := 0, log := [] }

/-- The engine with the log emptied. -/
def clearLog (m : Memory) : Memory := { m with log := [] }

/-- The engine after a call has come in. -/
def note (m : Memory) (c : Call) : Memory :=
  { m with made := m.made ++ [c.kind], log := m.log ++ [c] }

/-- The fault of the call that came in last, if it is one that fails. -/
def faultOf? (m : Memory) (c : Call) : Option Fault :=
  (m.script.failing.find? fun f =>
    f.kind = c.kind && (f.nth = none || f.nth = some (m.made.count c.kind))).map (·.fault)

/-- The engine with an index changed, if it has it. -/
def change (m : Memory) (name : String) (f : Index → Index) : Memory :=
  match m.indexes.find? name with
  | some i => { m with indexes := m.indexes.insert name (f i) }
  | none => m

/-- The engine with two indexes exchanged, if it has both. -/
def exchange (m : Memory) (pair : String × String) : Memory :=
  match m.indexes.find? pair.1, m.indexes.find? pair.2 with
  | some a, some b => { m with indexes := (m.indexes.insert pair.1 b).insert pair.2 a }
  | _, _ => m

/-- The engine with one more task, and its number. -/
def newTask (m : Memory) : Nat × Memory := (m.tasks + 1, { m with tasks := m.tasks + 1 })

/-- Does a call that is not made to fail. -/
def perform (m : Memory) : (c : Call) → Except Fault c.Answer × Memory
  | .connect _ _ _ => (.ok (), m)
  | .close => (.ok (), m)
  | .health => (.ok (), m)
  | .deleteIndex name => (.ok (), { m with indexes := m.indexes.erase name })
  | .createIndex name primaryKey =>
    (.ok (), { m with indexes := m.indexes.insert name ⟨primaryKey, [], []⟩ })
  | .getIndex name =>
    (if m.indexes.contains name then .ok () else .error (.error ("index " ++ name ++ " not found")),
      m)
  | .stats name =>
    (.ok ((m.indexes.find? name).elim 0 (·.documents.length)), m)
  | .configure name setting =>
    let (task, m) := (m.change name (·.configure setting)).newTask
    (.ok task, m)
  | .addDocuments name documents _ =>
    let (task, m) := (m.change name (·.add documents)).newTask
    (.ok task, m)
  | .swap pairs =>
    let (task, m) := (pairs.foldl exchange m).newTask
    (.ok task, m)
  | .wait task _ => (.ok ((m.script.statuses.lookup task).getD "succeeded"), m)

/-- Answers a call. -/
def answer (c : Call) (m : Memory) : Except Fault c.Answer × Memory :=
  let m := m.note c
  match m.faultOf? c with
  | some fault => (.error fault, m)
  | none => m.perform c

end Memory

end CatalogSearch.Engine
