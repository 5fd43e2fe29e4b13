import CatalogSearch.Cache.Command

/-!
# A cache in memory

It forgets nothing by itself, can be told to fail at a kind of command, and remembers which keys
were read and which connections were asked for.
-/

namespace CatalogSearch.Cache

/-- A kind of command. -/
inductive CommandKind where
  | connect
  | ping
  | close
  | info
  | read
  | write
deriving DecidableEq

/-- The kind of a command. -/
def Command.kind : Command → CommandKind
  | .connect _ => .connect
  | .ping => .ping
  | .close => .close
  | .info => .info
  | .read _ => .read
  | .write _ _ _ => .write

/-- A text and for how many seconds it may be kept. -/
structure Entry where
  ttl : Int
  text : String
deriving DecidableEq

/-- What the cache holds, what it tells about itself, at which kinds of commands it fails, the keys
of each read in their order, and the connections asked for. -/
structure Memory where
  entries : OrderedMap String Entry
  info : List (String × Json)
  faults : List (CommandKind × Fault)
  reads : List (List String)
  connections : List Connection

namespace Memory

/-- A new cache. -/
def empty : Memory := ⟨∅, [], [], [], []⟩

/-- The cache with a text under a key. -/
def put (m : Memory) (key : String) (e : Entry) : Memory :=
  { m with entries := m.entries.insert key e }

/-- The cache without certain keys, and how many of them it had. -/
def drop (m : Memory) (keys : List String) : Memory × Nat :=
  let entries := keys.foldl OrderedMap.erase m.entries
  ({ m with entries := entries }, m.entries.keys.length - entries.keys.length)

/-- The text under a key. -/
def get? (m : Memory) (key : String) : Option String := (m.entries.find? key).map (·.text)

/-- What the cache does when asked to connect, whether or not it can. -/
def note (m : Memory) : Command → Memory
  | .connect connection => { m with connections := m.connections ++ [connection] }
  | _ => m

/-- Does a command that does not fail. -/
def perform (m : Memory) : (c : Command) → c.Answer × Memory
  | .connect _ => ((), m)
  | .ping => ((), m)
  | .close => ((), m)
  | .info => (m.info, m)
  | .read keys => (keys.map m.get?, { m with reads := m.reads ++ [sortBy textLe keys] })
  | .write key ttl text => ((), m.put key ⟨ttl, text⟩)

/-- Answers a command. -/
def answer (c : Command) (m : Memory) : Except Fault c.Answer × Memory :=
  match m.faults.lookup c.kind with
  | some fault => (.error fault, m.note c)
  | none =>
    let (a, m) := (m.note c).perform c
    (.ok a, m)

end Memory

end CatalogSearch.Cache
