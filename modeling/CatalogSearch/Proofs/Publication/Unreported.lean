import CatalogSearch.Proofs.Publication.Requests
import CatalogSearch.Proofs.Service.Exchanges

/-!
# Unreported failures of a publication

Publication by the exchanges of a run: whatever fails, it is reported as failed, but for being
cancelled and for the last deletion of the second index, which nothing handles
(`ensures_publishRecorded`).
-/

namespace CatalogSearch.Publication

variable {α β : Type} {record t : List Exchange} {p : Plan}

/-- Work on the second index is cancelled only by an exchange on the record. -/
def CancelledBy (record : List Exchange) (a : Attempt Interruption α) : Prop :=
  Attempt.Ensures (Dialogue.among record) (fun _ => True) (fun _ _ => True)
    (fun e _ => e = .call .cancelled → record.any Exchange.cancels = true) a ()

theorem cancelledBy_pure {a : α} : CancelledBy record (pure a) := trivial

theorem cancelledBy_throw {e : Interruption} (h : e ≠ .call .cancelled) :
    CancelledBy record (throw e : Attempt Interruption α) :=
  fun he => absurd he h

theorem CancelledBy.bind {a : Attempt Interruption α} {f : α → Attempt Interruption β}
    (ha : CancelledBy record a) (hf : ∀ x, CancelledBy record (f x)) :
    CancelledBy record (a >>= f) :=
  Attempt.ensures_bind.2 (Attempt.Ensures.mono ha (fun x _ _ => hf x) fun _ _ h => h)

theorem any_cancels {c : Engine.Call}
    (h : (⟨.engine c, .error .cancelled⟩ : Exchange) ∈ record) :
    record.any Exchange.cancels = true :=
  List.any_eq_true.2 ⟨_, h, rfl⟩

theorem cancelledBy_ask (c : Engine.Call) : CancelledBy record (ask c) := by
  refine Attempt.ensures_withError.2 (Attempt.ensures_askEngine.2 fun r _ hr => ⟨trivial, ?_⟩)
  cases r with
  | ok a => trivial
  | error fault =>
    rintro ⟨⟩
    exact any_cancels hr

theorem cancelledBy_await (task : Nat) (timeout : Option Nat) :
    CancelledBy record (await task timeout) := by
  refine (cancelledBy_ask _).bind fun status => ?_
  split
  · exact cancelledBy_pure
  · exact cancelledBy_throw nofun

theorem cancelledBy_ensureIndex (name : String) : CancelledBy record (ensureIndex name) := by
  refine Attempt.ensures_bind.2 (Attempt.ensures_outcome.2 (Attempt.ensures_askEngine.2 ?_))
  intro r _ hr
  refine ⟨trivial, ?_⟩
  match r with
  | .ok () => trivial
  | .error .cancelled => exact fun _ => any_cancels hr
  | .error (.error _) => exact cancelledBy_ask _
  | .error (.refused _) => exact cancelledBy_ask _

theorem composes_cancelledBy (p : Plan) : p.Composes (CancelledBy record) where
  pure _ := cancelledBy_pure
  bind := CancelledBy.bind
  ask _ := cancelledBy_ask _
  await := cancelledBy_await
  ensureIndex := cancelledBy_ensureIndex _
  refuse _ := cancelledBy_throw nofun

/-- The publication is reported as failed, or cancelled by an exchange on the record, or the last of
the exchanges is the deletion of the second index, which failed. -/
def Failure.Traced (p : Plan) (record : List Exchange) : Failure → Prop
  | .failed _ => True
  | .cancelled => record.any Exchange.cancels = true
  | .uncaught message =>
    record.getLast? = some ⟨.engine (.deleteIndex p.rebuildIndex), .error (.error message)⟩
  | .notInitialised => False

theorem ensures_cleanUpRecorded (p : Plan) (t : List Exchange) :
    Attempt.Ensures Dialogue.recorded (fun _ => True)
      (fun _ t' => t.any Exchange.cancels = true → t'.any Exchange.cancels = true)
      (fun e t' => e.Traced p t') (cleanUp p) t := by
  refine Attempt.ensures_withError.2 (Attempt.ensures_askEngine.2 ?_)
  rintro r _ rfl
  refine ⟨trivial, ?_⟩
  match r with
  | .ok () =>
    intro h
    rw [List.any_append, h, Bool.true_or]
  | .error (.error message) => exact List.getLast?_concat
  | .error (.refused message) => trivial
  | .error .cancelled =>
    show (t ++ [_]).any Exchange.cancels = true
    exact any_cancels (List.mem_append_right t List.mem_cons_self)

/-- Whatever else fails in a publication, it is reported as failed. -/
theorem ensures_publishRecorded (p : Plan) (t : List Exchange) :
    Attempt.Ensures Dialogue.recorded (fun _ => True) (fun _ _ => True)
      (fun e t' => e.Traced p t') (publish p) t := by
  have hrebuild : Attempt.Ensures Dialogue.recorded (fun _ => True) (fun _ _ => True)
      (fun e t' => e = .call .cancelled → t'.any Exchange.cancels = true) (rebuild p) t :=
    Attempt.ensures_recorded fun record => (composes_cancelledBy p).rebuild
  refine Attempt.ensures_bind.2 (Attempt.ensures_outcome.2 (hrebuild.mono ?_ ?_))
  · intro _ t' _
    exact Attempt.ensures_bind.2
      ((ensures_cleanUpRecorded p t').mono (fun _ _ _ => trivial) fun _ _ h => h)
  · intro e t' he
    refine Attempt.ensures_bind.2 ((ensures_cleanUpRecorded p t').mono ?_ fun _ _ h => h)
    intro _ t'' hkept
    match e with
    | .call (.error _) | .call (.refused _) | .task _ _ | .batchSize _ => trivial
    | .call .cancelled => exact hkept (he rfl)

end CatalogSearch.Publication
