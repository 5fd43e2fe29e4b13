import CatalogSearch.Proofs.Data.LastBy
import CatalogSearch.Rehearsal.Engine

/-!
# A search engine that may fail

Every call may take effect or not, and return or not; a call that returns without a task took
effect, and a task has succeeded iff it took effect. `Server.perform` is what the calls do where
they take effect: documents are kept under their primary key, making an index that is there changes
nothing, and a swap exchanges two indexes at once. `Turn` is one call with all of this, and
`Turn.indexes_eq` says what it changes.
-/

namespace CatalogSearch.Engine

namespace Index

/-- What tells the documents of an index apart. -/
def key (i : Index) (p : Payload) : Option Json := p.find? i.primaryKey

/-- An index with documents added, in place of those with the same keys. -/
def upsert (i : Index) (documents : List Payload) : Index :=
  { i with documents := overwrite i.key i.documents documents }

@[simp] theorem primaryKey_configure (i : Index) (setting : IndexSetting) :
    (i.configure setting).primaryKey = i.primaryKey := rfl

@[simp] theorem documents_configure (i : Index) (setting : IndexSetting) :
    (i.configure setting).documents = i.documents := rfl

@[simp] theorem primaryKey_upsert (i : Index) (documents : List Payload) :
    (i.upsert documents).primaryKey = i.primaryKey := rfl

/-- Adding documents in two parts keeps the same ones as adding them at once. -/
theorem documents_upsert {i : Index} {added : List Payload}
    (h : i.documents = lastBy (·.find? i.primaryKey) added) (documents : List Payload) :
    (i.upsert documents).documents = lastBy (·.find? i.primaryKey) (added ++ documents) := by
  rw [lastBy_append, ← h]
  rfl

end Index

/-- The indexes by their names, and the numbers of tasks with whether they took effect. -/
structure Server where
  indexes : String → Option Index
  tasks : List (Nat × Bool)

namespace Server

variable {s t : Server} {name name' : String}

/-- The documents that an index serves; an index that is not there serves none. -/
def served (s : Server) (name : String) : List Payload :=
  ((s.indexes name).map (·.documents)).getD []

/-- The server with an index put under a name, or with none. -/
def set (s : Server) (name : String) (i : Option Index) : Server :=
  { s with indexes := fun n => if n = name then i else s.indexes n }

@[simp] theorem indexes_set_self (i : Option Index) : (s.set name i).indexes name = i := if_pos rfl

theorem indexes_set_of_ne (i : Option Index) (h : name' ≠ name) :
    (s.set name i).indexes name' = s.indexes name' := if_neg h

/-- The index of a name, a new one if there is none. -/
def indexOr (s : Server) (name primaryKey : String) : Index :=
  (s.indexes name).getD ⟨primaryKey, [], []⟩

theorem indexOr_eq {i : Index} {primaryKey : String} (h : s.indexes name = some i) :
    s.indexOr name primaryKey = i := by
  rw [indexOr, h]
  rfl

theorem served_set_of_ne (i : Option Index) (h : name' ≠ name) :
    (s.set name i).served name' = s.served name' := by
  rw [served, indexes_set_of_ne i h, served]

/-- Making an index that is missing serves nothing new. -/
theorem served_set_indexOr (primaryKey : String) :
    (s.set name (some (s.indexOr name primaryKey))).served name' = s.served name' := by
  by_cases h : name' = name
  · subst h
    rw [served, indexes_set_self, served, indexOr]
    cases s.indexes name' <;> rfl
  · exact served_set_of_ne _ h

/-- The server with two indexes exchanged, if it has both. -/
def exchange (s : Server) (pair : String × String) : Option Server :=
  match s.indexes pair.1, s.indexes pair.2 with
  | some i, some j => some ((s.set pair.1 (some j)).set pair.2 (some i))
  | _, _ => none

/-- What a call does where it takes effect, none where it cannot. -/
def perform (s : Server) : Call → Option Server
  | .deleteIndex name => some (s.set name none)
  | .createIndex name primaryKey => some (s.set name (some (s.indexOr name primaryKey)))
  | .configure name setting => some (s.set name (some ((s.indexOr name "").configure setting)))
  | .addDocuments name documents primaryKey =>
    some (s.set name (some ((s.indexOr name primaryKey).upsert documents)))
  | .swap pairs => pairs.foldlM exchange s
  | _ => some s

/-- A swap takes effect only if both indexes are there. -/
theorem perform_swap (h : s.perform (.swap [(name, name')]) = some t) :
    ∃ i j, s.indexes name = some i ∧ s.indexes name' = some j ∧
      t = (s.set name (some j)).set name' (some i) := by
  simp only [perform, List.foldlM_cons, List.foldlM_nil, exchange] at h
  cases hi : s.indexes name with
  | none => rw [hi] at h; cases h
  | some i =>
    cases hj : s.indexes name' with
    | none => rw [hi, hj] at h; cases h
    | some j =>
      rw [hi, hj] at h
      cases h
      exact ⟨i, j, rfl, rfl, rfl⟩

/-- Whether the server may answer a call so, by whether the call takes effect: a call without a task
is answered when it is done, the number of a task is a new one, and a task is said to have succeeded
iff it took effect. -/
def Admits (s : Server) (effect : Bool) : (c : Call) → c.Answer → Prop
  | .deleteIndex _, _ => effect
  | .createIndex _ _, _ => effect
  | .getIndex name, _ => (s.indexes name).isSome
  | .stats name, n => n = (s.served name).length
  | .configure _ _, task => task ∉ s.tasks.map Prod.fst
  | .addDocuments _ _ _, task => task ∉ s.tasks.map Prod.fst
  | .swap _, task => task ∉ s.tasks.map Prod.fst
  | .wait task _, status => status = "succeeded" ↔ (task, true) ∈ s.tasks
  | _, _ => True

/-- The server after it has answered a call: tasks are remembered with whether they took effect. -/
def record (s : Server) (effect : Bool) : (c : Call) → c.Answer → Server
  | .configure _ _, task => { s with tasks := (task, effect) :: s.tasks }
  | .addDocuments _ _ _, task => { s with tasks := (task, effect) :: s.tasks }
  | .swap _, task => { s with tasks := (task, effect) :: s.tasks }
  | _, _ => s

/-- What may become of a call: it takes effect or not, and it returns or not. -/
inductive Turn (s : Server) (c : Call) :
    (effect : Bool) → Except Fault c.Answer → Server → Prop where
  | done {t : Server} (h : s.perform c = some t) (a : c.Answer) (ha : s.Admits true c a) :
    Turn s c true (.ok a) (t.record true c a)
  | undone (a : c.Answer) (ha : s.Admits false c a) : Turn s c false (.ok a) (s.record false c a)
  | doneFaulty {t : Server} (h : s.perform c = some t) (e : Fault) : Turn s c true (.error e) t
  | undoneFaulty (e : Fault) : Turn s c false (.error e) s

@[simp] theorem indexes_record (effect : Bool) (c : Call) (a : c.Answer) :
    (s.record effect c a).indexes = s.indexes := by
  cases c <;> rfl

/-- What a call that takes effect leaves of the indexes, whether or not it returns. -/
theorem Turn.indexes_eq {c : Call} {effect : Bool} {r : Except Fault c.Answer}
    (h : Turn s c effect r t) :
    if effect then ∃ u, s.perform c = some u ∧ t.indexes = u.indexes
    else t.indexes = s.indexes := by
  cases h with
  | done h a ha => exact ⟨_, h, indexes_record ..⟩
  | undone a ha => exact indexes_record ..
  | doneFaulty h e => exact ⟨_, h, rfl⟩
  | undoneFaulty e => rfl

/-- An index that the effect of a call leaves serving the same, the call leaves so. -/
theorem Turn.served_eq {c : Call} {effect : Bool} {r : Except Fault c.Answer}
    (h : Turn s c effect r t) (hc : ∀ u, s.perform c = some u → u.served name = s.served name) :
    t.served name = s.served name := by
  have hi := h.indexes_eq
  cases effect with
  | true =>
    obtain ⟨u, hu, ht⟩ := hi
    rw [served, ht]
    exact hc u hu
  | false =>
    rw [served, show t.indexes = s.indexes from hi]
    rfl

/-- An index that the effect of a call leaves as it is, the call leaves so. -/
theorem Turn.index_eq {c : Call} {effect : Bool} {r : Except Fault c.Answer}
    (h : Turn s c effect r t) (hc : ∀ u, s.perform c = some u → u.indexes name = s.indexes name) :
    t.indexes name = s.indexes name := by
  have hi := h.indexes_eq
  cases effect with
  | true =>
    obtain ⟨u, hu, ht⟩ := hi
    rw [ht]
    exact hc u hu
  | false => rw [show t.indexes = s.indexes from hi]

/-- Waiting changes nothing. -/
theorem Turn.wait {task : Nat} {timeout : Option Nat} {effect : Bool}
    {r : Except Fault (Call.wait task timeout).Answer}
    (h : Turn s (.wait task timeout) effect r t) :
    t = s ∧ ∀ status, r = .ok status → (status = "succeeded" ↔ (task, true) ∈ s.tasks) := by
  cases h with
  | done h a ha => cases h; exact ⟨rfl, fun _ hr => by cases hr; exact ha⟩
  | undone a ha => exact ⟨rfl, fun _ hr => by cases hr; exact ha⟩
  | doneFaulty h e => cases h; exact ⟨rfl, fun _ hr => nomatch hr⟩
  | undoneFaulty e => exact ⟨rfl, fun _ hr => nomatch hr⟩

/-- A new number is that of a task that took effect iff the task it is given to did. -/
theorem mem_record_tasks {effect : Bool} {task : Nat} (h : task ∉ s.tasks.map Prod.fst) :
    (task, true) ∈ (task, effect) :: s.tasks ↔ effect = true := by
  have hs : (task, true) ∉ s.tasks := fun hm => h (List.mem_map.2 ⟨_, hm, rfl⟩)
  cases effect <;> simp [hs]

/-! ### Nothing fails -/

/-- A number that no task has. -/
def newTask (s : Server) : Nat := (s.tasks.map Prod.fst).max?.getD 0 + 1

/-- What the server answers if nothing fails. -/
def reply (s : Server) : (c : Call) → Except Fault c.Answer
  | .getIndex name =>
    if (s.indexes name).isSome then .ok () else .error (.error ("index " ++ name ++ " not found"))
  | .stats name => .ok (s.served name).length
  | .configure _ _ => .ok s.newTask
  | .addDocuments _ _ _ => .ok s.newTask
  | .swap _ => .ok s.newTask
  | .wait task _ => .ok (if (task, true) ∈ s.tasks then "succeeded" else "failed")
  | .connect _ _ _ => .ok ()
  | .close => .ok ()
  | .health => .ok ()
  | .deleteIndex _ => .ok ()
  | .createIndex _ _ => .ok ()

/-- A call to the server if nothing fails: it takes effect wherever it can. -/
def serve (s : Server) (c : Call) : Except Fault c.Answer × Server :=
  (s.reply c, match s.reply c, s.perform c with
    | .ok a, some t => t.record true c a
    | .ok a, none => s.record false c a
    | .error _, _ => s)

/-- Whether a call that does not fail takes effect. -/
def takesEffect (s : Server) (c : Call) : Bool := (s.reply c).isOk && (s.perform c).isSome

theorem newTask_not_mem (s : Server) : s.newTask ∉ s.tasks.map Prod.fst := fun h =>
  Nat.not_succ_le_self _ (List.le_max?_getD_of_mem h)

theorem admits_reply {c : Call} {a : c.Answer} (h : s.reply c = .ok a) :
    s.Admits true c a ∧ (s.perform c = none → s.Admits false c a) := by
  cases c with
  | deleteIndex name | createIndex name primaryKey => exact ⟨rfl, fun hp => nomatch hp⟩
  | getIndex name =>
    simp only [reply] at h
    split at h
    · next hi => exact ⟨hi, fun _ => hi⟩
    · cases h
  | stats name => cases h; exact ⟨rfl, fun _ => rfl⟩
  | configure name setting | addDocuments name documents primaryKey | swap pairs =>
    cases h
    exact ⟨newTask_not_mem s, fun _ => newTask_not_mem s⟩
  | wait task timeout =>
    cases h
    have hstatus : (if (task, true) ∈ s.tasks then "succeeded" else "failed") = "succeeded" ↔
        (task, true) ∈ s.tasks := by
      split <;> simp [*]
    exact ⟨hstatus, fun _ => hstatus⟩
  | connect | close | health => exact ⟨trivial, fun _ => trivial⟩

/-- What the server does if nothing fails is one of the things that may become of a call. -/
theorem turn_serve (s : Server) (c : Call) :
    s.Turn c (s.takesEffect c) (s.serve c).1 (s.serve c).2 := by
  rw [takesEffect, serve]
  cases hr : s.reply c with
  | error e => exact .undoneFaulty e
  | ok a =>
    obtain ⟨hdone, hundone⟩ := admits_reply hr
    cases hp : s.perform c with
    | some t => exact .done hp a hdone
    | none => exact .undone a (hundone hp)

end Server

end CatalogSearch.Engine
