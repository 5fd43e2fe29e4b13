import CatalogSearch.Proofs.Data.Batches
import CatalogSearch.Proofs.Engine.Server
import CatalogSearch.Proofs.Service.Ensures
import CatalogSearch.Publication

/-!
# Publication against a failing engine

Publication against a search engine that may fail at any call. `Ledger` is the search engine
together with what was last swapped in, and `Ledger.Sound` says that the live index serves exactly
that. Every call of a publication keeps it (`ensures_publish`): up to the swap nothing but the
second index changes, and when the swap is asked for, the second index holds all payloads of the
run.
-/

namespace CatalogSearch.Publication

open Engine

/-- The search engine, and the payloads of the latest run whose swap took effect. -/
structure Ledger where
  server : Server
  swapped : Option (List Payload)

namespace Ledger

/-- What the live index is to serve: the last payload of each document of the latest run whose swap
took effect, and what it served at first if there is none. -/
def expected (first : List Payload) : Option (List Payload) → List Payload
  | none => first
  | some payloads => lastBy (·.find? primaryKey) payloads

/-- The live index serves what it is to serve. -/
def Sound (live : String) (first : List Payload) (l : Ledger) : Prop :=
  l.server.served live = expected first l.swapped

/-- The ledger after a call of a run. -/
def after (l : Ledger) (payloads : List Payload) (effect : Bool) (server : Server) : Call → Ledger
  | .swap _ => ⟨server, if effect then some payloads else l.swapped⟩
  | _ => ⟨server, l.swapped⟩

/-- The search engine may fail at any call of a run. Requests to other services do not concern
it. -/
def turn (payloads : List Payload) : Behaviour Request Request.Reply Ledger
  | .engine c, l, r, l' =>
    ∃ effect server, l.server.Turn c effect r server ∧ l' = l.after payloads effect server c
  | .store _, l, _, l' => l' = l
  | .cache _, l, _, l' => l' = l

end Ledger

namespace Plan

/-- The two indexes of a publication have different names. -/
theorem rebuildIndex_ne (p : Plan) : p.rebuildIndex ≠ p.liveIndex := by
  intro h
  have := congrArg String.length h
  simp [rebuildIndex] at this

/-- The second index holds the last payload of each document of the given ones. -/
def Holds (p : Plan) (payloads : List Payload) (l : Ledger) : Prop :=
  ∃ i, l.server.indexes p.rebuildIndex = some i ∧ i.primaryKey = primaryKey ∧
    i.documents = lastBy (·.find? primaryKey) payloads

end Plan

variable {p : Plan} {first : List Payload} {l : Ledger}

/-! ### One call -/

theorem Ledger.after_of_ne_swap {c : Call} (hc : ∀ pairs, c ≠ .swap pairs) (payloads : List Payload)
    (effect : Bool) (server : Server) : l.after payloads effect server c = ⟨server, l.swapped⟩ := by
  cases c with
  | swap pairs => exact absurd rfl (hc pairs)
  | _ => rfl

/-- What holds whatever becomes of a call, holds after it. -/
theorem ensures_call {ε : Type} {f : Fault → ε} {c : Call} {I : Ledger → Prop}
    {ok : c.Answer → Ledger → Prop} {err : ε → Ledger → Prop}
    (h : ∀ effect r server, l.server.Turn c effect r server →
      I (l.after p.payloads effect server c) ∧
        onResult ok (fun e => err (f e)) r (l.after p.payloads effect server c)) :
    Attempt.Ensures (Ledger.turn p.payloads) I ok err ((askEngine c).withError f) l := by
  refine Attempt.ensures_withError.2 (Attempt.ensures_askEngine.2 fun r l' hr => ?_)
  obtain ⟨effect, server, ht, rfl⟩ := hr
  exact h effect r server ht

/-- A call that is no swap keeps the ledger sound if its effect leaves the live index serving the
same. -/
theorem ensures_call_of_served_eq {ε : Type} {f : Fault → ε} {c : Call}
    {ok : c.Answer → Ledger → Prop} {err : ε → Ledger → Prop} (hl : l.Sound p.liveIndex first)
    (hc : ∀ pairs, c ≠ .swap pairs)
    (hserved : ∀ u, l.server.perform c = some u →
      u.served p.liveIndex = l.server.served p.liveIndex)
    (h : ∀ effect r server, l.server.Turn c effect r server →
      Ledger.Sound p.liveIndex first ⟨server, l.swapped⟩ →
        onResult ok (fun e => err (f e)) r ⟨server, l.swapped⟩) :
    Attempt.Ensures (Ledger.turn p.payloads) (Ledger.Sound p.liveIndex first) ok err
      ((askEngine c).withError f) l := by
  refine ensures_call fun effect r server ht => ?_
  have hl' : Ledger.Sound p.liveIndex first ⟨server, l.swapped⟩ := (ht.served_eq hserved).trans hl
  rw [Ledger.after_of_ne_swap hc]
  exact ⟨hl', h effect r server ht hl'⟩

theorem ensures_deleteIndex {ε : Type} {f : Fault → ε} (hl : l.Sound p.liveIndex first) :
    Attempt.Ensures (Ledger.turn p.payloads) (Ledger.Sound p.liveIndex first)
      (fun _ l' => l'.Sound p.liveIndex first ∧ l'.server.indexes p.rebuildIndex = none ∧
        l'.swapped = l.swapped)
      (fun _ l' => l'.Sound p.liveIndex first)
      ((askEngine (.deleteIndex p.rebuildIndex)).withError f) l := by
  refine ensures_call_of_served_eq hl (by simp) ?_ fun effect r server ht hl' => ?_
  · rintro u ⟨⟩
    exact Server.served_set_of_ne _ p.rebuildIndex_ne.symm
  cases ht with
  | done hu a ha => cases hu; exact ⟨hl', Server.indexes_set_self _, rfl⟩
  | undone a ha => cases ha
  | doneFaulty hu e => exact hl'
  | undoneFaulty e => exact hl'

theorem ensures_createIndex (hl : l.Sound p.liveIndex first)
    (hnone : l.server.indexes p.rebuildIndex = none) :
    Attempt.Ensures (Ledger.turn p.payloads) (Ledger.Sound p.liveIndex first)
      (fun _ l' => l'.Sound p.liveIndex first ∧ p.Holds [] l')
      (fun _ l' => l'.Sound p.liveIndex first)
      (ask (.createIndex p.rebuildIndex primaryKey)) l := by
  refine ensures_call_of_served_eq hl (by simp) ?_ fun effect r server ht hl' => ?_
  · rintro u ⟨⟩
    exact Server.served_set_indexOr _
  cases ht with
  | done hu a ha =>
    cases hu
    refine ⟨hl', _, Server.indexes_set_self _, ?_⟩
    rw [Server.indexOr, hnone]
    exact ⟨rfl, rfl⟩
  | undone a ha => cases ha
  | doneFaulty hu e => exact hl'
  | undoneFaulty e => exact hl'

/-- Waiting for a task returns only if the task took effect. -/
theorem ensures_await {task : Nat} {timeout : Option Nat} {I : Ledger → Prop}
    {ok : Unit → Ledger → Prop} {err : Interruption → Ledger → Prop} (hI : I l)
    (hok : (task, true) ∈ l.server.tasks → ok () l) (herr : ∀ e, err e l) :
    Attempt.Ensures (Ledger.turn p.payloads) I ok err (await task timeout) l := by
  refine Attempt.ensures_bind.2 (ensures_call fun effect r server ht => ?_)
  obtain ⟨rfl, hstatus⟩ := ht.wait
  refine ⟨hI, ?_⟩
  cases r with
  | error e => exact herr _
  | ok status =>
    show Attempt.Ensures _ _ _ _ (if status = "succeeded" then _ else _) _
    split
    · next h => exact hok ((hstatus status rfl).1 h)
    · exact herr _

/-! ### Settings and documents of the second index -/

variable {payloads : List Payload}

theorem ensures_configureIndex (setting : IndexSetting) (hl : l.Sound p.liveIndex first)
    (hp : p.Holds payloads l) :
    Attempt.Ensures (Ledger.turn p.payloads) (Ledger.Sound p.liveIndex first)
      (fun _ l' => l'.Sound p.liveIndex first ∧ p.Holds payloads l')
      (fun _ l' => l'.Sound p.liveIndex first) (ask (.configure p.rebuildIndex setting)) l := by
  obtain ⟨i, hi, hkey, hdocuments⟩ := hp
  refine ensures_call_of_served_eq hl (by simp) ?_ fun effect r server ht hl' => ?_
  · rintro u ⟨⟩
    exact Server.served_set_of_ne _ p.rebuildIndex_ne.symm
  cases ht with
  | done hu a ha =>
    cases hu
    rw [Server.indexOr_eq hi] at hl' ⊢
    exact ⟨hl', i.configure setting, Server.indexes_set_self _, hkey, hdocuments⟩
  | undone a ha => exact ⟨hl', i, hi, hkey, hdocuments⟩
  | doneFaulty hu e => exact hl'
  | undoneFaulty e => exact hl'

theorem ensures_configure (settings : List IndexSetting) (hl : l.Sound p.liveIndex first)
    (hp : p.Holds payloads l) :
    Attempt.Ensures (Ledger.turn p.payloads) (Ledger.Sound p.liveIndex first)
      (fun _ l' => l'.Sound p.liveIndex first ∧ p.Holds payloads l')
      (fun _ l' => l'.Sound p.liveIndex first) (configure p.rebuildIndex settings) l := by
  induction settings generalizing l with
  | nil => exact ⟨hl, hp⟩
  | cons setting rest ih =>
    refine Attempt.ensures_bind.2 ((ensures_configureIndex setting hl hp).mono ?_ fun _ _ h => h)
    rintro task l' ⟨hl', hp'⟩
    exact Attempt.ensures_bind.2 (ensures_await hl' (fun _ => ih hl' hp') fun _ => hl')

theorem ensures_addDocuments (batch : List Payload) (hl : l.Sound p.liveIndex first)
    (hp : p.Holds payloads l) :
    Attempt.Ensures (Ledger.turn p.payloads) (Ledger.Sound p.liveIndex first)
      (fun task l' => l'.Sound p.liveIndex first ∧
        ((task, true) ∈ l'.server.tasks → p.Holds (payloads ++ batch) l'))
      (fun _ l' => l'.Sound p.liveIndex first)
      (ask (.addDocuments p.rebuildIndex batch primaryKey)) l := by
  obtain ⟨i, hi, hkey, hdocuments⟩ := hp
  refine ensures_call_of_served_eq hl (by simp) ?_ fun effect r server ht hl' => ?_
  · rintro u ⟨⟩
    exact Server.served_set_of_ne _ p.rebuildIndex_ne.symm
  cases ht with
  | done hu a ha =>
    cases hu
    rw [Server.indexOr_eq hi] at hl' ⊢
    refine ⟨hl', fun _ => ⟨i.upsert batch, Server.indexes_set_self _, hkey, ?_⟩⟩
    rw [← hkey] at hdocuments ⊢
    exact Index.documents_upsert hdocuments batch
  | undone a ha => exact ⟨hl', fun h => absurd ((Server.mem_record_tasks ha).1 h) (by simp)⟩
  | doneFaulty hu e => exact hl'
  | undoneFaulty e => exact hl'

/-- Batches that were all accepted are all in the second index. -/
theorem ensures_upload (batches : List (List Payload)) (hl : l.Sound p.liveIndex first)
    (hp : p.Holds payloads l) :
    Attempt.Ensures (Ledger.turn p.payloads) (Ledger.Sound p.liveIndex first)
      (fun _ l' => l'.Sound p.liveIndex first ∧ p.Holds (payloads ++ batches.flatten) l')
      (fun _ l' => l'.Sound p.liveIndex first) (upload p.rebuildIndex batches) l := by
  induction batches generalizing l payloads with
  | nil => exact ⟨hl, by simpa using hp⟩
  | cons batch rest ih =>
    refine Attempt.ensures_bind.2 ((ensures_addDocuments batch hl hp).mono ?_ fun _ _ h => h)
    rintro task l' ⟨hl', hp'⟩
    refine Attempt.ensures_bind.2 (ensures_await hl' (fun htask => ?_) fun _ => hl')
    rw [List.flatten_cons, ← List.append_assoc]
    exact ih hl' (hp' htask)

/-! ### The swap -/

theorem ensures_ensureIndex (hl : l.Sound p.liveIndex first) (hp : p.Holds payloads l) :
    Attempt.Ensures (Ledger.turn p.payloads) (Ledger.Sound p.liveIndex first)
      (fun _ l' => l'.Sound p.liveIndex first ∧ p.Holds payloads l')
      (fun _ l' => l'.Sound p.liveIndex first) (ensureIndex p.liveIndex) l := by
  have hcreate : Attempt.Ensures (Ledger.turn p.payloads) (Ledger.Sound p.liveIndex first)
      (fun _ l' => l'.Sound p.liveIndex first ∧ p.Holds payloads l')
      (fun _ l' => l'.Sound p.liveIndex first) (ask (.createIndex p.liveIndex primaryKey)) l := by
    obtain ⟨i, hi, hkey, hdocuments⟩ := hp
    refine ensures_call_of_served_eq hl (by simp) ?_ fun effect r server ht hl' => ?_
    · rintro u ⟨⟩
      exact Server.served_set_indexOr _
    cases ht with
    | done hu a ha =>
      cases hu
      exact ⟨hl', i, (Server.indexes_set_of_ne _ p.rebuildIndex_ne).trans hi, hkey, hdocuments⟩
    | undone a ha => cases ha
    | doneFaulty hu e => exact hl'
    | undoneFaulty e => exact hl'
  refine Attempt.ensures_bind.2 (Attempt.ensures_outcome.2 (Attempt.ensures_askEngine.2 ?_))
  rintro r l' ⟨effect, server, ht, rfl⟩
  have hserver : server = l.server := by
    cases ht with
    | done hu a ha => cases hu; rfl
    | undone a ha => rfl
    | doneFaulty hu e => cases hu; rfl
    | undoneFaulty e => rfl
  subst hserver
  refine ⟨hl, ?_⟩
  match r with
  | .ok () => exact ⟨hl, hp⟩
  | .error .cancelled => exact hl
  | .error (.error message) => exact hcreate
  | .error (.refused message) => exact hcreate

/-- A swap puts the payloads of the run under the live index, all at once or not at all. -/
theorem ensures_swap (hl : l.Sound p.liveIndex first) (hp : p.Holds p.payloads l) :
    Attempt.Ensures (Ledger.turn p.payloads) (Ledger.Sound p.liveIndex first)
      (fun task l' => l'.Sound p.liveIndex first ∧
        ((task, true) ∈ l'.server.tasks → l'.swapped = some p.payloads))
      (fun _ l' => l'.Sound p.liveIndex first)
      (ask (.swap [(p.liveIndex, p.rebuildIndex)])) l := by
  obtain ⟨i, hi, hkey, hdocuments⟩ := hp
  have hdone {u : Server} (hu : l.server.perform (.swap [(p.liveIndex, p.rebuildIndex)]) = some u) :
      u.served p.liveIndex = lastBy (·.find? primaryKey) p.payloads := by
    obtain ⟨_, j, -, hj, rfl⟩ := Server.perform_swap hu
    rw [Server.served_set_of_ne _ p.rebuildIndex_ne.symm, Server.served, Server.indexes_set_self,
      ← hj, hi, ← hdocuments]
    rfl
  refine ensures_call fun effect r server ht => ?_
  cases ht with
  | done hu a ha =>
    have h := hdone hu
    exact ⟨h, h, fun _ => rfl⟩
  | undone a ha =>
    exact ⟨hl, hl, fun h => absurd ((Server.mem_record_tasks ha).1 h) (by simp)⟩
  | doneFaulty hu e => exact ⟨hdone hu, hdone hu⟩
  | undoneFaulty e => exact ⟨hl, hl⟩

/-- The work on the second index keeps the ledger sound, and if it returns, its payloads are what
was last swapped in. -/
theorem ensures_rebuild (hb : 1 ≤ p.batchSize) (hl : l.Sound p.liveIndex first) :
    Attempt.Ensures (Ledger.turn p.payloads) (Ledger.Sound p.liveIndex first)
      (fun _ l' => l'.Sound p.liveIndex first ∧ l'.swapped = some p.payloads)
      (fun _ l' => l'.Sound p.liveIndex first) (rebuild p) l := by
  refine Attempt.ensures_bind.2 ((ensures_deleteIndex hl).mono ?_ fun _ _ h => h)
  rintro - l₁ ⟨hl₁, hnone, -⟩
  refine Attempt.ensures_bind.2 ((ensures_createIndex hl₁ hnone).mono ?_ fun _ _ h => h)
  rintro - l₂ ⟨hl₂, hp₂⟩
  refine Attempt.ensures_bind.2 ((ensures_configure indexSettings hl₂ hp₂).mono ?_ fun _ _ h => h)
  rintro - l₃ ⟨hl₃, hp₃⟩
  rw [batches_eq_ok hb]
  refine Attempt.ensures_bind.2 ((ensures_upload _ hl₃ hp₃).mono ?_ fun _ _ h => h)
  rintro - l₄ ⟨hl₄, hp₄⟩
  rw [List.nil_append, flatten_slices (by omega)] at hp₄
  refine Attempt.ensures_bind.2 ((ensures_ensureIndex hl₄ hp₄).mono ?_ fun _ _ h => h)
  rintro - l₅ ⟨hl₅, hp₅⟩
  refine Attempt.ensures_bind.2 ((ensures_swap hl₅ hp₅).mono ?_ fun _ _ h => h)
  rintro task l₆ ⟨hl₆, hswapped⟩
  exact ensures_await hl₆ (fun htask => ⟨hl₆, hswapped htask⟩) fun _ => hl₆

/-- A publication keeps the ledger sound at every call, those of cleaning up included. If it returns
a number, that many payloads were swapped in last. -/
theorem ensures_publish (hb : 1 ≤ p.batchSize) (hl : l.Sound p.liveIndex first) :
    Attempt.Ensures (Ledger.turn p.payloads) (Ledger.Sound p.liveIndex first)
      (fun n l' => l'.Sound p.liveIndex first ∧ l'.swapped = some p.payloads ∧
        n = p.payloads.length)
      (fun _ l' => l'.Sound p.liveIndex first) (publish p) l := by
  refine Attempt.ensures_bind.2 (Attempt.ensures_outcome.2 ((ensures_rebuild hb hl).mono ?_ ?_))
  · rintro - l₁ ⟨hl₁, hswapped⟩
    refine Attempt.ensures_bind.2 ((ensures_deleteIndex hl₁).mono ?_ fun _ _ h => h)
    rintro - l₂ ⟨hl₂, -, hsame⟩
    exact ⟨hl₂, hsame.trans hswapped, rfl⟩
  · intro e l₁ hl₁
    exact Attempt.ensures_bind.2 ((ensures_deleteIndex hl₁).mono (fun _ _ h => h.1) fun _ _ h => h)

end CatalogSearch.Publication
