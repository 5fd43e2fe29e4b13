import CatalogSearch.Proofs.Publication.History
import CatalogSearch.Proofs.Publication.Requests
import Mathlib.Control.Monad.Basic

/-!
# Publications that fail

Before the swap no call concerns what the live index serves, and what fails before it or keeps it
from taking effect leaves the live index as it was. But the reply to the swap or to waiting for its
task can be lost when the swap is done, and then the publication fails although it has replaced the
live index (`served_of_failed`).
-/

namespace CatalogSearch.Publication

open Engine

variable {live : String} {first : List Payload}

/-- The call leaves alone what an index serves. -/
structure Spares (live : String) (c : Call) : Prop where
  ne_swap : ∀ pairs, c ≠ .swap pairs
  served_eq : ∀ {s u : Server}, s.perform c = some u → u.served live = s.served live

theorem spares_wait (live : String) (task : Nat) (timeout : Option Nat) :
    Spares live (.wait task timeout) :=
  ⟨nofun, fun h => by cases h; rfl⟩

theorem spares_getIndex (live name : String) : Spares live (.getIndex name) :=
  ⟨nofun, fun h => by cases h; rfl⟩

/-- Making an index that is there changes nothing, and a new one is empty. -/
theorem spares_createIndex (live name primaryKey : String) :
    Spares live (.createIndex name primaryKey) :=
  ⟨nofun, fun h => by cases h; exact Server.served_set_indexOr primaryKey⟩

section OtherIndex

variable {name : String} (h : live ≠ name)
include h

theorem spares_deleteIndex : Spares live (.deleteIndex name) :=
  ⟨nofun, fun hu => by cases hu; exact Server.served_set_of_ne _ h⟩

theorem spares_configure (setting : IndexSetting) : Spares live (.configure name setting) :=
  ⟨nofun, fun hu => by cases hu; exact Server.served_set_of_ne _ h⟩

theorem spares_addDocuments (documents : List Payload) (primaryKey : String) :
    Spares live (.addDocuments name documents primaryKey) :=
  ⟨nofun, fun hu => by cases hu; exact Server.served_set_of_ne _ h⟩

end OtherIndex

/-- The request leaves alone what the live index serves. -/
def SparesLive (live : String) : Request → Prop
  | .engine c => Spares live c
  | .store _ => True
  | .cache _ => True

/-- The search engine during a publication, whether a swap has taken effect, and whether a call
has failed since then: that of the swap or a later one. -/
structure Watch where
  server : Server
  swapped : Bool
  failedSince : Bool

namespace Watch

/-- The search engine before the first call. -/
def start (server : Server) : Watch := ⟨server, false, false⟩

/-- After a call that took effect or not, and failed or not. -/
def after (w : Watch) (effect failed : Bool) (server : Server) : Call → Watch
  | .swap _ =>
    ⟨server, w.swapped || effect, w.failedSince || ((w.swapped || effect) && failed)⟩
  | _ => ⟨server, w.swapped, w.failedSince || (w.swapped && failed)⟩

/-- The search engine may fail at any call of a publication. -/
def turn : Behaviour Request Request.Reply Watch
  | .engine c, w, r, w' =>
    ∃ effect server, w.server.Turn c effect r server ∧ w' = w.after effect (!r.isOk) server c
  | .store _, w, _, w' => w' = w
  | .cache _, w, _, w' => w' = w

/-- No swap has taken effect, and the live index serves what it served at first. -/
def Untouched (live : String) (first : List Payload) (w : Watch) : Prop :=
  w.swapped = false ∧ w.server.served live = first

/-- A swap has taken effect, and a call has failed since. -/
def Overtaken (w : Watch) : Prop := w.swapped = true ∧ w.failedSince = true

variable {w w' : Watch} {c : Call} {effect failed : Bool} {server : Server}

theorem after_of_spares (hc : Spares live c) :
    w.after effect failed server c =
      ⟨server, w.swapped, w.failedSince || (w.swapped && failed)⟩ := by
  cases c with
  | swap pairs => exact absurd rfl (hc.ne_swap pairs)
  | _ => rfl

theorem Untouched.turn {r : Request} {x : r.Reply} (hw : w.Untouched live first)
    (hr : SparesLive live r) (h : turn r w x w') : w'.Untouched live first := by
  cases r with
  | store q => exact h ▸ hw
  | cache command => exact h ▸ hw
  | engine c =>
    obtain ⟨effect, server, hturn, rfl⟩ := h
    rw [after_of_spares hr]
    exact ⟨hw.1, (hturn.served_eq fun u => hr.served_eq).trans hw.2⟩

theorem Overtaken.turn {r : Request} {x : r.Reply} (hw : w.Overtaken) (h : turn r w x w') :
    w'.Overtaken := by
  cases r with
  | store q => exact h ▸ hw
  | cache command => exact h ▸ hw
  | engine c =>
    obtain ⟨effect, server, -, rfl⟩ := h
    obtain ⟨hswapped, hfailed⟩ := hw
    cases c <;> exact ⟨by simp [after, hswapped], by simp [after, hfailed]⟩

/-- Once a swap has taken effect, a call that fails is one that has failed since. -/
theorem overtaken_of_failed (hw : w.swapped = true) :
    (w.after effect true server c).Overtaken := by
  cases c <;> exact ⟨by simp [after, hw], by simp [after, hw]⟩

end Watch

open Watch

variable {p : Plan} {w : Watch}

/-- What asks only for calls that spare the live index leaves it untouched. -/
theorem ensures_untouched {ε α : Type} {a : Attempt ε α}
    (ha : Attempt.Asks (SparesLive live) a) (hw : w.Untouched live first) :
    Attempt.Ensures turn (fun _ => True) (fun _ w' => w'.Untouched live first)
      (fun _ w' => w'.Untouched live first) a w :=
  ha.ensures (fun _ _ _ _ hr hw h => hw.turn hr h) (fun _ _ => trivial) hw

/-- Waiting for the task of a swap returns only if the swap took effect. -/
theorem ensures_awaitSwap (first : List Payload) {task : Nat} {timeout : Option Nat}
    (hw : w.swapped = true ∧ (task, true) ∈ w.server.tasks ∨
      w.Untouched live first ∧ (task, true) ∉ w.server.tasks) :
    Attempt.Ensures turn (fun _ => True) (fun _ w' => w'.swapped = true)
      (fun _ w' => w'.Untouched live first ∨ w'.Overtaken) (await task timeout) w := by
  refine Attempt.ensures_bind.2 (Attempt.ensures_withError.2 (Attempt.ensures_askEngine.2 ?_))
  rintro r w' ⟨effect, server, hturn, rfl⟩
  obtain ⟨rfl, hstatus⟩ := hturn.wait
  refine ⟨trivial, ?_⟩
  cases r with
  | error e =>
    rcases hw with ⟨hswapped, -⟩ | ⟨⟨hswapped, hserved⟩, -⟩
    · exact .inr (overtaken_of_failed hswapped)
    · exact .inl ⟨hswapped, hserved⟩
  | ok status =>
    have hstatus := hstatus status rfl
    show Attempt.Ensures _ _ _ _ (if status = "succeeded" then _ else _) _
    rcases hw with ⟨hswapped, htask⟩ | ⟨⟨hswapped, hserved⟩, htask⟩
    · rw [if_pos (hstatus.2 htask)]
      exact hswapped
    · rw [if_neg fun h => htask (hstatus.1 h)]
      exact .inl ⟨hswapped, hserved⟩

theorem ensures_swapIn (hw : w.Untouched p.liveIndex first) :
    Attempt.Ensures turn (fun _ => True) (fun _ w' => w'.swapped = true)
      (fun _ w' => w'.Untouched p.liveIndex first ∨ w'.Overtaken)
      (do await (← ask (.swap [(p.liveIndex, p.rebuildIndex)])) taskTimeout) w := by
  refine Attempt.ensures_bind.2 (Attempt.ensures_withError.2 (Attempt.ensures_askEngine.2 ?_))
  rintro r w' ⟨effect, server, hturn, rfl⟩
  refine ⟨trivial, ?_⟩
  cases hturn with
  | @done t ht task htask =>
    exact ensures_awaitSwap first (.inl ⟨by simp [after], List.mem_cons_self⟩)
  | undone task htask =>
    refine ensures_awaitSwap first (.inr ⟨⟨by simp [after, hw.1], hw.2⟩, ?_⟩)
    exact fun h => absurd ((Server.mem_record_tasks htask).1 h) (by simp)
  | doneFaulty ht e => exact .inr ⟨by simp [after], by simp [after, Except.isOk, Except.toBool]⟩
  | undoneFaulty e => exact .inl ⟨by simp [after, hw.1], hw.2⟩

/-- The work on the second index ends with the swap, or fails with the live index untouched or after
the swap. -/
theorem ensures_rebuildWatched (hw : w.Untouched p.liveIndex first) :
    Attempt.Ensures turn (fun _ => True) (fun _ w' => w'.swapped = true)
      (fun _ w' => w'.Untouched p.liveIndex first ∨ w'.Overtaken) (rebuild p) w := by
  have hne := p.rebuildIndex_ne.symm
  have hwait (task : Nat) (timeout : Option Nat) :
      SparesLive p.liveIndex (.engine (.wait task timeout)) := spares_wait _ task timeout
  have hdelete : Attempt.Asks (SparesLive p.liveIndex) (ask (.deleteIndex p.rebuildIndex)) :=
    asks_ask (spares_deleteIndex hne)
  have hcreate (name : String) :
      Attempt.Asks (SparesLive p.liveIndex) (ask (.createIndex name primaryKey)) :=
    asks_ask (spares_createIndex _ _ _)
  have hconfigure := asks_configure hwait (spares_configure hne) indexSettings
  have hensure : Attempt.Asks (SparesLive p.liveIndex) (ensureIndex p.liveIndex) :=
    asks_ensureIndex (spares_getIndex _ _) (spares_createIndex _ _ _)
  refine Attempt.ensures_bind.2 ((ensures_untouched hdelete hw).mono ?_ fun _ _ => .inl)
  intro _ w₁ hw₁
  refine Attempt.ensures_bind.2 ((ensures_untouched (hcreate _) hw₁).mono ?_ fun _ _ => .inl)
  intro _ w₂ hw₂
  refine Attempt.ensures_bind.2 ((ensures_untouched hconfigure hw₂).mono ?_ fun _ _ => .inl)
  intro _ w₃ hw₃
  dsimp only
  split
  · exact Attempt.ensures_bind.2 (.inl hw₃)
  · next chunks _ =>
    have hupload := asks_upload hwait (fun batch => spares_addDocuments hne batch primaryKey) chunks
    refine Attempt.ensures_bind.2 ((ensures_untouched hupload hw₃).mono ?_ fun _ _ => .inl)
    intro _ w₄ hw₄
    refine Attempt.ensures_bind.2 ((ensures_untouched hensure hw₄).mono ?_ fun _ _ => .inl)
    exact fun _ _ hw₅ => ensures_swapIn hw₅

theorem ensures_cleanUpUntouched (hw : w.Untouched p.liveIndex first) :
    Attempt.Ensures turn (fun _ => True) (fun _ w' => w'.Untouched p.liveIndex first)
      (fun _ w' => w'.Untouched p.liveIndex first) (cleanUp p) w :=
  ensures_untouched
    (Attempt.asks_askEngine (spares_deleteIndex p.rebuildIndex_ne.symm)).withError hw

theorem ensures_cleanUpOvertaken (hw : w.Overtaken) :
    Attempt.Ensures turn (fun _ => True) (fun _ w' => w'.Overtaken) (fun _ w' => w'.Overtaken)
      (cleanUp p) w := by
  refine Attempt.ensures_withError.2 (Attempt.ensures_askEngine.2 fun r w' h => ⟨trivial, ?_⟩)
  have hw' : w'.Overtaken := hw.turn h
  cases r <;> exact hw'

/-- Cleaning up after the swap fails only with a call failing. -/
theorem ensures_cleanUpSwapped (hw : w.swapped = true) :
    Attempt.Ensures turn (fun _ => True) (fun _ _ => True) (fun _ w' => w'.Overtaken) (cleanUp p)
      w := by
  refine Attempt.ensures_withError.2 (Attempt.ensures_askEngine.2 ?_)
  rintro r w' ⟨effect, server, -, rfl⟩
  refine ⟨trivial, ?_⟩
  cases r with
  | ok a => trivial
  | error e => exact overtaken_of_failed hw

/-- A publication that fails has left the live index untouched, or a call has failed after its
swap. -/
theorem ensures_publishWatched (hw : w.Untouched p.liveIndex first) :
    Attempt.Ensures turn (fun _ => True) (fun _ _ => True)
      (fun _ w' => w'.Untouched p.liveIndex first ∨ w'.Overtaken) (publish p) w := by
  refine Attempt.ensures_bind.2
    (Attempt.ensures_outcome.2 ((ensures_rebuildWatched hw).mono ?_ ?_))
  · intro _ w₁ hw₁
    refine Attempt.ensures_bind.2 ((ensures_cleanUpSwapped hw₁).mono ?_ fun _ _ => .inr)
    exact fun _ _ _ => trivial
  · rintro e w₁ (hw₁ | hw₁)
    · exact Attempt.ensures_bind.2
        ((ensures_cleanUpUntouched hw₁).mono (fun _ _ => .inl) fun _ _ => .inl)
    · exact Attempt.ensures_bind.2
        ((ensures_cleanUpOvertaken hw₁).mono (fun _ _ => .inr) fun _ _ => .inr)

/-- A publication that fails in whatever way leaves the live index serving what it served before,
unless its swap has taken effect and that call or a later one has failed. -/
theorem served_of_failed {u : Server} {e : Failure}
    (h : Dialogue.Reaches turn (publish p).run (.start u) (.done (.error e)) w) :
    w.swapped = false ∧ w.server.served p.liveIndex = u.served p.liveIndex ∨
      w.swapped = true ∧ w.failedSince = true :=
  Dialogue.Ensures.rest (ensures_publishWatched ⟨rfl, rfl⟩) h

/-- A search engine at which certain calls take effect but run out of time. -/
def Watch.serve (late : Call → Bool) : (r : Request) → Watch → r.Reply × Watch
  | .engine c, w =>
    if late c then
      match w.server.perform c with
      | some server => (.error (.error "timed out"), w.after true true server c)
      | none => (.error (.error "timed out"), w.after false true w.server c)
    else
      ((w.server.serve c).1,
        w.after (w.server.takesEffect c) (!(w.server.serve c).1.isOk) (w.server.serve c).2 c)
  | .store _, w => (.error ⟨"no store"⟩, w)
  | .cache _, w => (.error (.unreachable "no cache"), w)

theorem Watch.turn_serve (late : Call → Bool) (r : Request) (w : Watch) :
    turn r w (serve late r w).1 (serve late r w).2 := by
  cases r with
  | store q => rfl
  | cache c => rfl
  | engine c =>
    rw [serve]
    split
    · split
      · next server h => exact ⟨true, server, .doneFaulty h _, rfl⟩
      · exact ⟨false, w.server, .undoneFaulty _, rfl⟩
    · exact ⟨_, _, w.server.turn_serve c, rfl⟩

/-- A publication in whose course waiting for certain tasks runs out of time. -/
def lateRun (late : Nat → Bool) : Except Failure Nat × Watch :=
  (publish ⟨"projects", 2, [.ofList [(primaryKey, .str "2")]]⟩).run.run
    (Watch.serve fun
      | .wait task _ => late task
      | _ => false)
    (.start leftover)

theorem reaches_lateRun (late : Nat → Bool) :
    Dialogue.Reaches turn (publish ⟨"projects", 2, [.ofList [(primaryKey, .str "2")]]⟩).run
      (.start leftover) (.done (lateRun late).1) (lateRun late).2 :=
  Dialogue.reaches_run (Watch.turn_serve _) _ _

/-- Task 5 is that of the upload. -/
theorem served_of_lateUpload :
    (lateRun (· = 5)).1 = .error (.failed "Failed to publish search documents: timed out") ∧
      (lateRun (· = 5)).2.server.served "projects" = leftover.served "projects" := by
  have hr : (lateRun (· = 5)).1 =
    .error (.failed "Failed to publish search documents: timed out") := by decide +kernel
  have hswapped : (lateRun (· = 5)).2.swapped = false := by decide +kernel
  have h := reaches_lateRun (· = 5)
  rw [hr] at h
  obtain ⟨-, hserved⟩ | ⟨hswapped', -⟩ := served_of_failed h
  · exact ⟨hr, hserved⟩
  · rw [hswapped] at hswapped'
    cases hswapped'

/-- Task 6 is that of the swap: the publication is reported as failed, and the live index serves
its documents. -/
theorem not_served_of_lateSwap :
    ¬ ∀ (p : Plan) (u : Server) (message : String) (w : Watch),
      Dialogue.Reaches turn (publish p).run (.start u) (.done (.error (.failed message))) w →
        w.server.served p.liveIndex = u.served p.liveIndex := by
  intro h
  have hr : (lateRun (· = 6)).1 =
    .error (.failed "Failed to publish search documents: timed out") := by decide +kernel
  have hreaches := reaches_lateRun (· = 6)
  rw [hr] at hreaches
  have hserved : (lateRun (· = 6)).2.server.served "projects" ≠ leftover.served "projects" := by
    decide +kernel
  exact hserved (h _ _ _ _ hreaches)

end CatalogSearch.Publication
