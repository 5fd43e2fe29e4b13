import CatalogSearch.Proofs.Service.Asks
import CatalogSearch.Publication

/-!
# Requests of a publication

Which calls each part of a publication can make, whatever the replies (`asks_publish`).
-/

namespace CatalogSearch.Publication

variable {p : Request → Prop}

theorem asks_ask {call : Engine.Call} (h : p (.engine call)) : Attempt.Asks p (ask call) :=
  (Attempt.asks_askEngine h).withError

section Waiting

/-! Waiting for tasks, and what is done by tasks. -/

variable (hwait : ∀ task timeout, p (.engine (.wait task timeout)))
include hwait

theorem asks_await (task : Nat) (timeout : Option Nat) : Attempt.Asks p (await task timeout) := by
  refine (asks_ask (hwait task timeout)).bind fun status => ?_
  split
  · exact Attempt.asks_pure
  · exact Attempt.asks_throw

theorem asks_configure {index : String} (h : ∀ setting, p (.engine (.configure index setting)))
    (settings : List Engine.IndexSetting) : Attempt.Asks p (configure index settings) := by
  induction settings with
  | nil => exact Attempt.asks_pure
  | cons setting rest ih =>
    exact (asks_ask (h setting)).bind fun task => (asks_await hwait _ _).bind fun _ => ih

theorem asks_upload {index : String}
    (h : ∀ batch, p (.engine (.addDocuments index batch primaryKey)))
    (chunks : List (List Payload)) : Attempt.Asks p (upload index chunks) := by
  induction chunks with
  | nil => exact Attempt.asks_pure
  | cons chunk rest ih =>
    exact (asks_ask (h chunk)).bind fun task => (asks_await hwait _ _).bind fun _ => ih

end Waiting

theorem asks_ensureIndex {name : String} (hget : p (.engine (.getIndex name)))
    (hcreate : p (.engine (.createIndex name primaryKey))) :
    Attempt.Asks p (ensureIndex name) := by
  refine (Attempt.asks_askEngine hget).outcome.bind fun r => ?_
  split
  · exact Attempt.asks_pure
  · exact Attempt.asks_throw
  · exact asks_ask hcreate

/-! ### A whole publication -/

/-- The calls by which a publication changes indexes. -/
inductive Plan.Changes (p : Plan) : Engine.Call → Prop where
  | deleteIndex : Changes p (.deleteIndex p.rebuildIndex)
  | createIndex : Changes p (.createIndex p.rebuildIndex primaryKey)
  | configure (setting : Engine.IndexSetting) : Changes p (.configure p.rebuildIndex setting)
  | addDocuments (batch : List Payload) :
    Changes p (.addDocuments p.rebuildIndex batch primaryKey)
  | createLive : Changes p (.createIndex p.liveIndex primaryKey)
  | swap : Changes p (.swap [(p.liveIndex, p.rebuildIndex)])

/-- What holds of composed work if it holds of its parts, and holds of the parts of the work on the
second index. -/
structure Plan.Composes (p : Plan) (P : ∀ {α : Type}, Attempt Interruption α → Prop) : Prop where
  pure : ∀ {α : Type} (a : α), P (pure a : Attempt Interruption α)
  bind : ∀ {α β : Type} {a : Attempt Interruption α} {f : α → Attempt Interruption β},
    P a → (∀ x, P (f x)) → P (a >>= f)
  ask : ∀ {c : Engine.Call}, p.Changes c → P (ask c)
  await : ∀ (task : Nat) (timeout : Option Nat), P (await task timeout)
  ensureIndex : P (ensureIndex p.liveIndex)
  refuse : ∀ {α : Type} {e : BatchSizeError}, batches p.batchSize p.payloads = .error e →
    P (throw (.batchSize e) : Attempt Interruption α)

namespace Plan.Composes

variable {p : Plan} {P : ∀ {α : Type}, Attempt Interruption α → Prop} (h : p.Composes P)
include h

theorem configure (settings : List Engine.IndexSetting) :
    P (Publication.configure p.rebuildIndex settings) := by
  induction settings with
  | nil => exact h.pure ()
  | cons setting rest ih =>
    exact h.bind (h.ask (.configure setting)) fun task => h.bind (h.await _ _) fun _ => ih

theorem upload (chunks : List (List Payload)) : P (Publication.upload p.rebuildIndex chunks) := by
  induction chunks with
  | nil => exact h.pure ()
  | cons chunk rest ih =>
    exact h.bind (h.ask (.addDocuments chunk)) fun task => h.bind (h.await _ _) fun _ => ih

theorem rebuild : P (Publication.rebuild p) := by
  have hswap : P (do
      Publication.ensureIndex p.liveIndex
      Publication.await (← Publication.ask (.swap [(p.liveIndex, p.rebuildIndex)])) taskTimeout) :=
    h.bind h.ensureIndex fun _ => h.bind (h.ask .swap) fun _ => h.await _ _
  refine h.bind (h.ask .deleteIndex) fun _ => h.bind (h.ask .createIndex) fun _ =>
    h.bind (h.configure _) fun _ => ?_
  split
  · next hbatches => exact h.bind (h.refuse hbatches) fun _ => hswap
  · exact h.bind (h.upload _) fun _ => hswap

end Plan.Composes

/-- The request is one that a publication makes. -/
inductive Plan.Requests (p : Plan) : Request → Prop where
  | change {c : Engine.Call} (h : p.Changes c) : Requests p (.engine c)
  | getLive : Requests p (.engine (.getIndex p.liveIndex))
  | wait (task : Nat) (timeout : Option Nat) : Requests p (.engine (.wait task timeout))

theorem composes_asks (p : Plan) : p.Composes (Attempt.Asks p.Requests) where
  pure _ := Attempt.asks_pure
  bind := Attempt.Asks.bind
  ask hc := asks_ask (.change hc)
  await := asks_await .wait
  ensureIndex := asks_ensureIndex .getLive (.change .createLive)
  refuse _ := Attempt.asks_throw

theorem asks_publish (p : Plan) : Attempt.Asks p.Requests (publish p) := by
  have hcleanUp : Attempt.Asks p.Requests (cleanUp p) :=
    (Attempt.asks_askEngine (p := p.Requests) (.change .deleteIndex)).withError
  refine (composes_asks p).rebuild.outcome.bind fun r => ?_
  split
  · exact hcleanUp.bind fun _ => Attempt.asks_pure
  · exact hcleanUp.bind fun _ => Attempt.asks_throw

end CatalogSearch.Publication
