import CatalogSearch.Proofs.Publication.History
import CatalogSearch.Proofs.Publication.Requests
import Mathlib.Control.Monad.Basic

/-!
# Publications step by step

A chronicle is the search engine together with every call made so far and the reply to it, and
`Chronicle.failing?` is the first step that failed. How the work on the second index ends, is
settled by that step alone (`publish_ends`).
-/

namespace CatalogSearch.Publication

open Engine

/-- A call, the search engine that it met, and the reply to it. -/
structure Step where
  met : Server
  call : Call
  reply : Except Fault call.Answer

namespace Step

/-- The call did not return, or it was waiting for a task that did not succeed. -/
def raises : Step → Bool
  | ⟨_, .wait _ _, .ok status⟩ => status ≠ "succeeded"
  | ⟨_, _, .ok _⟩ => false
  | ⟨_, _, .error _⟩ => true

/-- The call was cancelled. -/
def cancelled : Step → Bool
  | ⟨_, _, .error .cancelled⟩ => true
  | _ => false

/-- The call was a lookup that did not find the index, for whatever reason but being cancelled. -/
def misses : Step → Bool
  | ⟨_, .getIndex _, .error .cancelled⟩ => false
  | ⟨_, .getIndex _, .error _⟩ => true
  | _ => false

/-- The call was to delete an index. -/
def deletes : Step → Bool
  | ⟨_, .deleteIndex _, _⟩ => true
  | _ => false

/-- The step failed; a lookup that finds no index has not. -/
def fails (x : Step) : Bool := x.raises && !x.misses

end Step

/-- The search engine during a publication, and the steps so far. -/
structure Chronicle where
  server : Server
  steps : List Step

namespace Chronicle

/-- The search engine before the first call. -/
def start (server : Server) : Chronicle := ⟨server, []⟩

/-- The chronicle after one more step. -/
def after (w : Chronicle) {c : Call} (r : Except Fault c.Answer) (server : Server) : Chronicle :=
  ⟨server, w.steps ++ [⟨w.server, c, r⟩]⟩

/-- The search engine may fail at any call of a publication. -/
def turn : Behaviour Request Request.Reply Chronicle
  | .engine c, w, r, w' => ∃ effect server, w.server.Turn c effect r server ∧ w' = w.after r server
  | .store _, w, _, w' => w' = w
  | .cache _, w, _, w' => w' = w

/-- The first step that failed. -/
def failing? (w : Chronicle) : Option Step := w.steps.find? Step.fails

/-- No deletion of an index has failed. -/
def DeletesIndexes (w : Chronicle) : Prop := ∀ x ∈ w.steps, x.deletes = true → x.fails = false

variable {w : Chronicle} {c : Call} {r : Except Fault c.Answer} {server : Server}

theorem failing?_after : (w.after r server).failing? =
    w.failing?.or (if (Step.mk w.server c r).fails then some ⟨w.server, c, r⟩ else none) := by
  rw [failing?, failing?, after, List.find?_append, List.find?_singleton]

theorem failing?_after_of_not_fails (h : (Step.mk w.server c r).fails = false) :
    (w.after r server).failing? = w.failing? := by
  rw [failing?_after, h, if_neg Bool.false_ne_true, Option.or_none]

theorem failing?_after_of_fails (hw : w.failing? = none)
    (h : (Step.mk w.server c r).fails = true) :
    (w.after r server).failing? = some ⟨w.server, c, r⟩ := by
  rw [failing?_after, h, if_pos rfl, hw, Option.none_or]

end Chronicle

open Chronicle

variable {α β : Type} {p : Plan} {w : Chronicle}

/-! ### The step to blame -/

/-- What interrupts the work on the second index is the first step that failed, and the work is
cancelled iff that step was; without such a step batches of documents have no size. -/
def Interruption.BlamedOn (p : Plan) (w : Chronicle) : Interruption → Prop
  | .batchSize _ => w.failing? = none ∧ p.batchSize = 0
  | e => ∃ x, w.failing? = some x ∧ (x.cancelled = true ↔ e = .call .cancelled)

/-- If no step has failed before, none has afterwards, or the work is interrupted by the first that
did. -/
def Blames (p : Plan) (a : Attempt Interruption α) : Prop :=
  ∀ w : Chronicle, w.failing? = none →
    Attempt.Ensures turn (fun _ => True) (fun _ w' => w'.failing? = none)
      (fun e w' => e.BlamedOn p w') a w

theorem Blames.bind {a : Attempt Interruption α} {f : α → Attempt Interruption β}
    (ha : Blames p a) (hf : ∀ x, Blames p (f x)) : Blames p (a >>= f) :=
  fun w hw => Attempt.ensures_bind.2 ((ha w hw).mono (fun x w' hw' => hf x w' hw') fun _ _ h => h)

/-- A call that fails interrupts the work. -/
theorem blamedOn_call (hw : w.failing? = none) {c : Call} {fault : Fault} (server : Server)
    (h : (Step.mk w.server c (.error fault)).fails = true) :
    (Interruption.call fault).BlamedOn p (w.after (c := c) (.error fault) server) := by
  refine ⟨_, failing?_after_of_fails hw h, ?_⟩
  cases fault with
  | cancelled => exact iff_of_true rfl rfl
  | error message | refused message => exact iff_of_false Bool.false_ne_true nofun

theorem blames_ask {c : Call} (hc : ∀ s r, (Step.mk s c r).fails = !r.isOk) :
    Blames p (ask c) := by
  intro w hw
  refine Attempt.ensures_withError.2 (Attempt.ensures_askEngine.2 ?_)
  rintro r _ ⟨effect, server, -, rfl⟩
  refine ⟨trivial, ?_⟩
  cases r with
  | ok a => exact (failing?_after_of_not_fails (hc _ _)).trans hw
  | error fault => exact blamedOn_call (p := p) hw server (hc _ _)

theorem blames_await (task : Nat) (timeout : Option Nat) : Blames p (await task timeout) := by
  intro w hw
  refine Attempt.ensures_bind.2 (Attempt.ensures_withError.2 (Attempt.ensures_askEngine.2 ?_))
  rintro r _ ⟨effect, server, -, rfl⟩
  refine ⟨trivial, ?_⟩
  cases r with
  | error fault => exact blamedOn_call (p := p) hw server rfl
  | ok status =>
    show Attempt.Ensures _ _ _ _ (if status = "succeeded" then _ else _) _
    split
    · next h =>
      refine (failing?_after_of_not_fails ?_).trans hw
      simp [Step.fails, Step.raises, h]
    · next h =>
      refine ⟨_, failing?_after_of_fails hw ?_, iff_of_false Bool.false_ne_true nofun⟩
      simp [Step.fails, Step.raises, Step.misses, h]

theorem blames_ensureIndex (name : String) : Blames p (ensureIndex name) := by
  intro w hw
  refine Attempt.ensures_bind.2 (Attempt.ensures_outcome.2 (Attempt.ensures_askEngine.2 ?_))
  rintro r _ ⟨effect, server, -, rfl⟩
  refine ⟨trivial, ?_⟩
  have hcreate : Blames p (ask (.createIndex name primaryKey)) :=
    blames_ask fun s r => by cases r <;> rfl
  -- A lookup that fails without being cancelled is no failing step; making the index may be one.
  match r with
  | .ok () => exact (failing?_after_of_not_fails rfl).trans hw
  | .error .cancelled => exact blamedOn_call (p := p) hw server rfl
  | .error (.error message) => exact hcreate _ ((failing?_after_of_not_fails rfl).trans hw)
  | .error (.refused message) => exact hcreate _ ((failing?_after_of_not_fails rfl).trans hw)

theorem composes_blames (p : Plan) : p.Composes (Blames p) where
  pure _ _ hw := hw
  bind := Blames.bind
  ask hc := blames_ask fun s r => by cases hc <;> cases r <;> rfl
  await := blames_await
  ensureIndex := blames_ensureIndex _
  refuse hbatches w hw := by
    refine ⟨hw, ?_⟩
    rw [batches] at hbatches
    split at hbatches
    · assumption
    · cases hbatches

theorem ensures_batchSize (p : Plan) (w : Chronicle) :
    Attempt.Ensures turn (fun _ => True) (fun _ _ => p.batchSize ≠ 0) (fun _ _ => True)
      (rebuild p) w := by
  -- Nothing is known of the calls before the batches are made, nor of those after it.
  refine Attempt.ensures_bind.2 (Attempt.ensures_true.mono (fun _ _ _ => ?_) fun _ _ h => h)
  refine Attempt.ensures_bind.2 (Attempt.ensures_true.mono (fun _ _ _ => ?_) fun _ _ h => h)
  refine Attempt.ensures_bind.2 (Attempt.ensures_true.mono (fun _ _ _ => ?_) fun _ _ h => h)
  dsimp only
  split
  · exact Attempt.ensures_bind.2 trivial
  · next hbatches =>
    have hsize : p.batchSize ≠ 0 := by
      rintro hzero
      rw [batches, if_pos hzero] at hbatches
      cases hbatches
    exact Attempt.ensures_true.mono (fun _ _ _ => hsize) fun _ _ h => h

/-! ### How a publication ends -/

/-- A publication ends as its first failing step says: it is cancelled if that step was, and
reported as failed otherwise. Without such a step it tells how many payloads there are, unless
batches have no size. -/
def Plan.Ends (p : Plan) (w : Chronicle) (r : Except Failure Nat) : Prop :=
  match w.failing? with
  | some x =>
    if x.cancelled then r = .error .cancelled else ∃ message, r = .error (.failed message)
  | none =>
    if p.batchSize = 0 then ∃ message, r = .error (.failed message) else r = .ok p.payloads.length

theorem Interruption.BlamedOn.ends {e : Interruption} (h : e.BlamedOn p w) :
    p.Ends w (.error e.failure) := by
  rw [Plan.Ends]
  match e with
  | .batchSize cause =>
    obtain ⟨hw, hsize⟩ := h
    rw [hw]
    exact (if_pos hsize).mpr ⟨_, rfl⟩
  | .task number status =>
    obtain ⟨x, hx, hcancelled⟩ := h
    rw [hx]
    exact (if_neg fun h => nomatch hcancelled.1 h).mpr ⟨_, rfl⟩
  | .call .cancelled =>
    obtain ⟨x, hx, hcancelled⟩ := h
    rw [hx]
    exact (if_pos (hcancelled.2 rfl)).mpr rfl
  | .call (.error message) | .call (.refused message) =>
    obtain ⟨x, hx, hcancelled⟩ := h
    rw [hx]
    exact (if_neg fun h => nomatch hcancelled.1 h).mpr ⟨_, rfl⟩

theorem Plan.Ends.congr {w' : Chronicle} {r : Except Failure Nat} (h : p.Ends w r)
    (hw : w'.failing? = w.failing?) : p.Ends w' r := by
  rw [Plan.Ends, hw]
  exact h

/-- There are three ways to end, and no two of them at once. -/
theorem Plan.Ends.exits {r : Except Failure Nat} (h : p.Ends w r) :
    (r = .ok p.payloads.length ↔ w.failing? = none ∧ p.batchSize ≠ 0) ∧
    (r = .error .cancelled ↔ ∃ x, w.failing? = some x ∧ x.cancelled = true) ∧
    ((∃ message, r = .error (.failed message)) ↔
      r ≠ .ok p.payloads.length ∧ r ≠ .error .cancelled) := by
  rw [Plan.Ends] at h
  cases hw : w.failing? with
  | none =>
    rw [hw] at h
    by_cases hsize : p.batchSize = 0
    · obtain ⟨message, rfl⟩ := (if_pos hsize).mp h
      simp [hsize]
    · obtain rfl := (if_neg hsize).mp h
      simp [hsize]
  | some x =>
    rw [hw] at h
    by_cases hx : x.cancelled = true
    · obtain rfl := (if_pos hx).mp h
      simp [hx]
    · obtain ⟨message, rfl⟩ := (if_neg hx).mp h
      simp [hx]

/-- Cleaning up fails no other step, and when it returns, there is no second index. -/
theorem ensures_cleanUpStep (p : Plan) (w : Chronicle) :
    Attempt.Ensures turn (fun _ => True)
      (fun _ w' => w'.failing? = w.failing? ∧ w'.server.indexes p.rebuildIndex = none)
      (fun _ w' => ¬ w'.DeletesIndexes) (cleanUp p) w := by
  refine Attempt.ensures_withError.2 (Attempt.ensures_askEngine.2 ?_)
  rintro r _ ⟨effect, server, hturn, rfl⟩
  refine ⟨trivial, ?_⟩
  cases hturn with
  | done hu a ha =>
    cases hu
    exact ⟨failing?_after_of_not_fails rfl, Server.indexes_set_self _⟩
  | undone a ha => cases ha
  | doneFaulty _ e | undoneFaulty e =>
    intro h
    have hx := h _ (List.mem_append_right _ List.mem_cons_self) rfl
    cases hx

/-- Whatever fails in a publication but the deletion of an index, it ends as its first failing step
says, and there is no second index. -/
theorem ensures_publishSteps (p : Plan) (u : Server) :
    Attempt.Ensures turn (fun _ => True)
      (fun n w => w.DeletesIndexes → p.Ends w (.ok n) ∧ w.server.indexes p.rebuildIndex = none)
      (fun e w => w.DeletesIndexes → p.Ends w (.error e) ∧ w.server.indexes p.rebuildIndex = none)
      (publish p) (.start u) := by
  have hrebuild := ((composes_blames p).rebuild (.start u) rfl).and (ensures_batchSize p (.start u))
  refine Attempt.ensures_bind.2 (Attempt.ensures_outcome.2 (hrebuild.mono ?_ ?_))
  · rintro - w ⟨hw, hsize⟩
    have hends : p.Ends w (.ok p.payloads.length) := by
      rw [Plan.Ends, hw]
      exact (if_neg hsize).mpr rfl
    refine Attempt.ensures_bind.2 ((ensures_cleanUpStep p w).mono ?_ fun _ _ h h' => absurd h' h)
    rintro - w' ⟨hw', hnone⟩ -
    exact ⟨hends.congr hw', hnone⟩
  · rintro e w ⟨he, -⟩
    refine Attempt.ensures_bind.2 ((ensures_cleanUpStep p w).mono ?_ fun _ _ h h' => absurd h' h)
    rintro - w' ⟨hw', hnone⟩ -
    exact ⟨he.ends.congr hw', hnone⟩

theorem Plan.Changes.index_eq {c : Call} (h : p.Changes c) {name : String} {s t : Server}
    (hlive : name ≠ p.liveIndex) (hrebuild : name ≠ p.rebuildIndex) (hc : s.perform c = some t) :
    t.indexes name = s.indexes name := by
  cases h with
  | deleteIndex | createIndex | configure setting | addDocuments batch =>
    cases hc
    exact Server.indexes_set_of_ne _ hrebuild
  | createLive =>
    cases hc
    exact Server.indexes_set_of_ne _ hlive
  | swap =>
    obtain ⟨i, j, -, -, rfl⟩ := Server.perform_swap hc
    rw [Server.indexes_set_of_ne _ hrebuild, Server.indexes_set_of_ne _ hlive]

/-- Indexes of other names are left as they are. -/
theorem ensures_others (p : Plan) {name : String} (hlive : name ≠ p.liveIndex)
    (hrebuild : name ≠ p.rebuildIndex) {i : Option Index} (hw : w.server.indexes name = i) :
    Attempt.Ensures turn (fun _ => True) (fun _ w' => w'.server.indexes name = i)
      (fun _ w' => w'.server.indexes name = i) (publish p) w := by
  refine (asks_publish p).ensures ?_ (fun _ _ => trivial) hw
  rintro r w x w' hr hw hx
  cases hr with
  | change hc =>
    obtain ⟨effect, server, hturn, rfl⟩ := hx
    exact (hturn.index_eq fun u hu => hc.index_eq hlive hrebuild hu).trans hw
  | getLive | wait task timeout =>
    obtain ⟨effect, server, hturn, rfl⟩ := hx
    exact (hturn.index_eq fun u hu => by cases hu; rfl).trans hw

section Reaches

variable {u : Server} {r : Except Failure Nat}
  (h : Dialogue.Reaches turn (publish p).run (.start u) (.done r) w)
include h

theorem ends_of_reaches (hdelete : w.DeletesIndexes) :
    p.Ends w r ∧ w.server.indexes p.rebuildIndex = none := by
  have hpost := Dialogue.Ensures.rest (ensures_publishSteps p u) h
  cases r with
  | ok n => exact hpost hdelete
  | error e => exact hpost hdelete

theorem index_of_reaches {name : String} (hlive : name ≠ p.liveIndex)
    (hrebuild : name ≠ p.rebuildIndex) : w.server.indexes name = u.indexes name := by
  have hpost := Dialogue.Ensures.rest (ensures_others p (w := .start u) hlive hrebuild rfl) h
  cases r with
  | ok n => exact hpost
  | error e => exact hpost

end Reaches

/-- If no deletion of an index fails, a publication returns the number of payloads, is cancelled, or
is reported as failed, as its first failing step says. Whichever it is, there is no second index in
the end, and but for the live index the others are as they were. -/
theorem publish_ends {u : Server} {r : Except Failure Nat}
    (h : Dialogue.Reaches turn (publish p).run (.start u) (.done r) w)
    (hdelete : w.DeletesIndexes) :
    (r = .ok p.payloads.length ↔ w.failing? = none ∧ p.batchSize ≠ 0) ∧
    (r = .error .cancelled ↔ ∃ x, w.failing? = some x ∧ x.cancelled = true) ∧
    ((∃ message, r = .error (.failed message)) ↔
      r ≠ .ok p.payloads.length ∧ r ≠ .error .cancelled) ∧
    w.server.indexes p.rebuildIndex = none ∧
    ∀ name, name ≠ p.liveIndex → name ≠ p.rebuildIndex →
      w.server.indexes name = u.indexes name := by
  obtain ⟨hends, hnone⟩ := ends_of_reaches h hdelete
  obtain ⟨hreturns, hcancelled, hfailed⟩ := hends.exits
  exact ⟨hreturns, hcancelled, hfailed, hnone, fun name => index_of_reaches h⟩

/-- A search engine at which certain calls fail and have no effect. -/
def Chronicle.serve (faults : Call → Option Fault) :
    (r : Request) → Chronicle → r.Reply × Chronicle
  | .engine c, w =>
    match faults c with
    | some e => (.error e, w.after (c := c) (.error e) w.server)
    | none => ((w.server.serve c).1, w.after (w.server.serve c).1 (w.server.serve c).2)
  | .store _, w => (.error ⟨"no store"⟩, w)
  | .cache _, w => (.error (.unreachable "no cache"), w)

theorem Chronicle.turn_serve (faults : Call → Option Fault) (r : Request) (w : Chronicle) :
    turn r w (serve faults r w).1 (serve faults r w).2 := by
  cases r with
  | store q => rfl
  | cache c => rfl
  | engine c =>
    rw [serve]
    split
    · next e _ => exact ⟨false, w.server, .undoneFaulty e, rfl⟩
    · exact ⟨_, _, w.server.turn_serve c, rfl⟩

/-- A publication of some payloads in batches of two, in which certain calls fail. -/
def faultyRun (u : Server) (payloads : List Payload) (faults : Call → Option Fault) :
    Except Failure Nat × Chronicle :=
  (publish ⟨"projects", 2, payloads⟩).run.run (serve faults) (.start u)

theorem reaches_faultyRun (u : Server) (payloads : List Payload) (faults : Call → Option Fault) :
    Dialogue.Reaches turn (publish ⟨"projects", 2, payloads⟩).run (.start u)
      (.done (faultyRun u payloads faults).1) (faultyRun u payloads faults).2 :=
  Dialogue.reaches_run (turn_serve faults) _ _

/-- The second of two uploads is cancelled. -/
def cancelledUpload : Except Failure Nat × Chronicle :=
  faultyRun leftover threePayloads fun
    | .addDocuments _ [_] _ => some .cancelled
    | _ => none

theorem publish_ends_cancelledUpload :
    cancelledUpload.2.DeletesIndexes ∧ cancelledUpload.1 = .error .cancelled ∧
      cancelledUpload.2.server.indexes "projects_rebuild" = none := by
  have hdelete : cancelledUpload.2.DeletesIndexes := by
    rw [DeletesIndexes]
    decide +kernel
  have hfailing : cancelledUpload.2.failing?.map Step.cancelled = some true := by decide +kernel
  obtain ⟨-, hcancelled, -, hnone, -⟩ := publish_ends (reaches_faultyRun _ _ _) hdelete
  exact ⟨hdelete, hcancelled.2 (Option.map_eq_some_iff.1 hfailing), hnone⟩

/-- The call made an index. -/
def Step.creates : Step → Bool
  | ⟨_, .createIndex _ _, .ok _⟩ => true
  | _ => false

/-- The first step that raised, where a lookup that found no index is passed over only if the next
step made the index. -/
def raising? : List Step → Option Step
  | [] => none
  | [x] => if x.raises then some x else none
  | x :: y :: rest =>
    if x.raises && !(x.misses && y.creates) then some x else raising? (y :: rest)

/-- There is no live index, and making it is cancelled. -/
def cancelledLive : Except Failure Nat × Chronicle :=
  faultyRun ⟨fun _ => none, []⟩ [] fun
    | .createIndex "projects" _ => some .cancelled
    | _ => none

/-- If making the live index is cancelled, so is the publication, although the lookup before it had
raised and was not cancelled. -/
theorem not_cancelled_of_raising :
    ¬ ∀ (p : Plan) (u : Server) (r : Except Failure Nat) (w : Chronicle),
      Dialogue.Reaches turn (publish p).run (.start u) (.done r) w → w.DeletesIndexes →
        (r = .error .cancelled ↔ ∃ x, raising? w.steps = some x ∧ x.cancelled = true) := by
  intro h
  have hdelete : cancelledLive.2.DeletesIndexes := by
    rw [DeletesIndexes]
    decide +kernel
  have hcancelled : cancelledLive.1 = .error .cancelled := by decide +kernel
  have hraising : (raising? cancelledLive.2.steps).map Step.cancelled = some false := by
    decide +kernel
  obtain ⟨x, hx, hxc⟩ := (h _ _ _ _ (reaches_faultyRun _ _ _) hdelete).1 hcancelled
  rw [cancelledLive] at hraising
  rw [hx, Option.map_some, hxc] at hraising
  cases hraising

end CatalogSearch.Publication
