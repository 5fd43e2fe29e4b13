import CatalogSearch.Proofs.Publication.Rebuild

/-!
# Histories of publications

Histories of publications to one live index, with any calls failing in each of them. After every
single call the live index serves all of the latest run whose swap took effect
(`served_of_history`).
-/

namespace CatalogSearch.Publication

open Engine

/-- The ledgers that a history of publications to a live index comes through, call by call. Each
publication may have any plan; it may also be broken off between two calls, as when the worker is
killed, and another one start where it stopped. -/
inductive History (live : String) (start : Server) : Ledger → Prop where
  | start : History live start ⟨start, none⟩
  | run {l l' : Ledger} {p : Plan} {rest : Work (Except Failure Nat)} :
    History live start l → p.liveIndex = live → 1 ≤ p.batchSize →
      Dialogue.Reaches (Ledger.turn p.payloads) (publish p).run l rest l' → History live start l'

/-- At every call of a history, the live index serves the last payload of each document of the
latest run whose swap took effect, and nothing else; until there is one it serves what it served at
first. -/
theorem served_of_history {live : String} {start : Server} {l : Ledger}
    (h : History live start l) :
    l.server.served live =
      match l.swapped with
      | none => start.served live
      | some payloads => lastBy (·.find? primaryKey) payloads := by
  have hsound : l.Sound live (start.served live) := by
    induction h with
    | start => rfl
    | @run l l' p rest _ hlive hb hr ih =>
      subst hlive
      exact Dialogue.Ensures.invariant (ensures_publish hb ih) ih hr
  exact hsound

/-- A search engine at which certain calls take effect but do not return. -/
def Ledger.serve (payloads : List Payload) (lost : Call → Bool) :
    (r : Request) → Ledger → r.Reply × Ledger
  | .engine c, l =>
    if lost c then
      match l.server.perform c with
      | some server => (.error .cancelled, l.after payloads true server c)
      | none => (.error .cancelled, l.after payloads false l.server c)
    else ((l.server.serve c).1, l.after payloads (l.server.takesEffect c) (l.server.serve c).2 c)
  | .store _, l => (.error ⟨"no store"⟩, l)
  | .cache _, l => (.error (.unreachable "no cache"), l)

theorem Ledger.turn_serve (payloads : List Payload) (lost : Call → Bool) (r : Request)
    (l : Ledger) :
    turn payloads r l (serve payloads lost r l).1 (serve payloads lost r l).2 := by
  cases r with
  | store q => rfl
  | cache c => rfl
  | engine c =>
    rw [serve]
    split
    · split
      · next server h => exact ⟨true, server, .doneFaulty h _, rfl⟩
      · exact ⟨false, l.server, .undoneFaulty _, rfl⟩
    · exact ⟨_, _, l.server.turn_serve c, rfl⟩

/-- The ledger after a publication of some payloads in batches of two. -/
def Ledger.publish (l : Ledger) (payloads : List Payload) (lost : Call → Bool) : Ledger :=
  ((Publication.publish ⟨"projects", 2, payloads⟩).run.run (serve payloads lost) l).2

theorem History.publish {start : Server} {l : Ledger} (h : History "projects" start l)
    (payloads : List Payload) (lost : Call → Bool) :
    History "projects" start (l.publish payloads lost) :=
  .run (p := ⟨"projects", 2, payloads⟩) h rfl (show (1 : Int) ≤ 2 by decide)
    (Dialogue.reaches_run (Ledger.turn_serve payloads lost) _ l)

/-- A server with a document in the live index and one left in the second index. -/
def leftover : Server where
  indexes
    | "projects" => some ⟨primaryKey, [], [.ofList [(primaryKey, .str "1"), ("name", .str "old")]]⟩
    | "projects_rebuild" => some ⟨primaryKey, [], [.ofList [(primaryKey, .str "9")]]⟩
    | _ => none
  tasks := []

/-- The payloads of a run, of which the first and the last have the same key. -/
def threePayloads : List Payload :=
  [.ofList [(primaryKey, .str "2"), ("name", .str "draft")], .ofList [(primaryKey, .str "1")],
    .ofList [(primaryKey, .str "2"), ("name", .str "final")]]

/-- Two runs, the second one cancelled while its first upload takes effect. -/
def twoRuns : Ledger :=
  Ledger.publish (Ledger.publish ⟨leftover, none⟩ threePayloads fun _ => false) [.ofList []]
    fun
      | .addDocuments _ _ _ => true
      | _ => false

theorem served_twoRuns :
    History "projects" leftover twoRuns ∧
      twoRuns.server.served "projects" =
        [.ofList [(primaryKey, .str "1")],
          .ofList [(primaryKey, .str "2"), ("name", .str "final")]] := by
  have hswapped : twoRuns.swapped = some threePayloads := by decide +kernel
  have h : History "projects" leftover twoRuns := (History.start.publish _ _).publish _ _
  refine ⟨h, ?_⟩
  rw [served_of_history h, hswapped]
  decide +kernel

end CatalogSearch.Publication
