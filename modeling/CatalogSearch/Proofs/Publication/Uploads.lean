import CatalogSearch.Proofs.Data.Batches
import CatalogSearch.Proofs.Publication.Requests
import CatalogSearch.Proofs.Service.Exchanges

/-!
# Uploads of a publication

By the record of a publication that returns, the batches of its payloads went to the second index
one after the other, and each of the uploads was waited for and succeeded
(`ensures_publishUploads`).
-/

namespace CatalogSearch

/-- Whether the request adds documents to an index. -/
def Request.uploads : Request → Bool
  | .engine (.addDocuments _ _ _) => true
  | _ => false

namespace Publication

/-- The uploads on the record are those of the batches to the index, in this order. Each is
answered with a task, which is waited for at once and succeeds. -/
inductive Uploaded (index : String) : List (List Payload) → List Exchange → Prop where
  | start : Uploaded index [] []
  | other {chunks : List (List Payload)} {record : List Exchange} {r : Request} {x : r.Reply} :
    Uploaded index chunks record → r.uploads = false → Uploaded index chunks (record ++ [⟨r, x⟩])
  | batch {chunks : List (List Payload)} {record : List Exchange} {chunk : List Payload}
    {task : Nat} :
    Uploaded index chunks record → Uploaded index (chunks ++ [chunk])
      (record ++ [⟨.engine (.addDocuments index chunk primaryKey), .ok task⟩] ++
        [⟨.engine (.wait task none), .ok "succeeded"⟩])

variable {ε α : Type} {p : Plan} {index : String} {done : List (List Payload)}
  {record : List Exchange}

theorem Uploaded.countP_eq (h : Uploaded index done record) :
    record.countP (·.1.uploads) = done.length := by
  induction h with
  | start => rfl
  | other _ hr ih => simp [ih, hr]
  | batch _ ih =>
    rw [List.countP_append, List.countP_append, ih, List.length_append]
    rfl

/-- What uploads nothing leaves the uploads as they are. -/
theorem Uploaded.ensures (h : Uploaded index done record) {a : Attempt ε α}
    (ha : Attempt.Asks (·.uploads = false) a) :
    Attempt.Ensures Dialogue.recorded (fun _ => True) (fun _ => Uploaded index done)
      (fun _ => Uploaded index done) a record := by
  refine ha.ensures ?_ (fun _ _ => trivial) h
  rintro r t x _ hr ht rfl
  exact ht.other hr

/-- Waiting goes on only after a task that has succeeded. -/
theorem ensures_awaitSucceeded (task : Nat) (timeout : Option Nat) (t : List Exchange) :
    Attempt.Ensures Dialogue.recorded (fun _ => True)
      (fun _ t' => t' = t ++ [⟨.engine (.wait task timeout), .ok "succeeded"⟩]) (fun _ _ => True)
      (await task timeout) t := by
  refine Attempt.ensures_bind.2 (Attempt.ensures_withError.2 (Attempt.ensures_askEngine.2 ?_))
  rintro (_ | status) _ rfl
  · exact ⟨trivial, trivial⟩
  refine ⟨trivial, ?_⟩
  show Attempt.Ensures _ _ _ _ (if status = "succeeded" then _ else _) _
  split
  · next h =>
    subst h
    rfl
  · trivial

/-- Each batch is uploaded once, after those before it. -/
theorem Uploaded.ensures_upload (h : Uploaded index done record) (chunks : List (List Payload)) :
    Attempt.Ensures Dialogue.recorded (fun _ => True) (fun _ => Uploaded index (done ++ chunks))
      (fun _ _ => True) (upload index chunks) record := by
  induction chunks generalizing done record with
  | nil =>
    rw [List.append_nil]
    exact h
  | cons chunk rest ih =>
    refine Attempt.ensures_bind.2 (Attempt.ensures_withError.2 (Attempt.ensures_askEngine.2 ?_))
    rintro (_ | task) _ rfl
    · exact ⟨trivial, trivial⟩
    refine ⟨trivial, Attempt.ensures_bind.2 ((ensures_awaitSucceeded _ _ _).mono ?_ fun _ _ h => h)⟩
    rintro - _ rfl
    rw [List.append_cons]
    exact ih h.batch

/-- The work on the second index ends well only if each batch of the payloads has been uploaded to
it. -/
theorem ensures_rebuildUploads (h : Uploaded p.rebuildIndex [] record) :
    Attempt.Ensures Dialogue.recorded (fun _ => True)
      (fun _ record' => ∃ chunks, Batched p.batchSize p.payloads chunks ∧
        Uploaded p.rebuildIndex chunks record') (fun _ _ => True) (rebuild p) record := by
  have hdelete : Attempt.Asks (·.uploads = false) (ask (.deleteIndex p.rebuildIndex)) :=
    asks_ask rfl
  have hcreate : Attempt.Asks (·.uploads = false) (ask (.createIndex p.rebuildIndex primaryKey)) :=
    asks_ask rfl
  have hswap : Attempt.Asks (·.uploads = false) (ask (.swap [(p.liveIndex, p.rebuildIndex)])) :=
    asks_ask rfl
  have hwait (task : Nat) (timeout : Option Nat) :
      (Request.engine (.wait task timeout)).uploads = false := rfl
  refine Attempt.ensures_bind.2 ((h.ensures hdelete).mono ?_ fun _ _ _ => trivial)
  intro _ _ h
  refine Attempt.ensures_bind.2 ((h.ensures hcreate).mono ?_ fun _ _ _ => trivial)
  intro _ _ h
  refine Attempt.ensures_bind.2
    ((h.ensures (asks_configure hwait (fun _ => rfl) _)).mono ?_ fun _ _ _ => trivial)
  intro _ _ h
  split
  · trivial
  next chunks hchunks =>
  refine Attempt.ensures_bind.2 ((h.ensures_upload chunks).mono ?_ fun _ _ h => h)
  intro _ _ h
  rw [List.nil_append] at h
  refine Attempt.ensures_bind.2
    ((h.ensures (asks_ensureIndex rfl rfl)).mono ?_ fun _ _ _ => trivial)
  intro _ _ h
  refine Attempt.ensures_bind.2 ((h.ensures hswap).mono ?_ fun _ _ _ => trivial)
  intro _ _ h
  exact (h.ensures (asks_await hwait _ _)).mono
    (fun _ _ h => ⟨chunks, batched_of_batches hchunks, h⟩) fun _ _ _ => trivial

/-- A publication that returns has uploaded each batch of its payloads. -/
theorem ensures_publishUploads (h : Uploaded p.rebuildIndex [] record) :
    Attempt.Ensures Dialogue.recorded (fun _ => True)
      (fun n record' => n = p.payloads.length ∧ ∃ chunks,
        Batched p.batchSize p.payloads chunks ∧ Uploaded p.rebuildIndex chunks record')
      (fun _ _ => True) (publish p) record := by
  have hcleanUp : Attempt.Asks (·.uploads = false) (cleanUp p) :=
    (Attempt.asks_askEngine (p := (·.uploads = false)) rfl).withError
  refine Attempt.ensures_bind.2 (Attempt.ensures_outcome.2
    ((ensures_rebuildUploads h).mono ?_ fun e record' _ => ?_))
  · rintro - record' ⟨chunks, hchunks, h⟩
    exact Attempt.ensures_bind.2 ((h.ensures hcleanUp).mono
      (fun _ _ h => ⟨rfl, chunks, hchunks, h⟩) fun _ _ _ => trivial)
  · exact Attempt.ensures_bind.2 (Attempt.ensures_true.mono (fun _ _ _ => trivial) fun _ _ h => h)

/-- Of such a publication all the payloads have been uploaded just if the batch size is positive or
there are none. -/
theorem uploaded_whole_iff {chunks : List (List Payload)}
    (hbatched : Batched p.batchSize p.payloads chunks)
    (h : Uploaded p.rebuildIndex chunks record) :
    (∃ chunks', chunks'.flatten = p.payloads ∧ Uploaded p.rebuildIndex chunks' record) ↔
      0 < p.batchSize ∨ p.payloads = [] := by
  constructor
  · rintro ⟨chunks', hflatten, h'⟩
    cases hbatched with
    | sliced hpos _ => exact .inl hpos
    | dropped _ hnone =>
      subst hnone
      have hlength : chunks'.length = 0 := h'.countP_eq.symm.trans h.countP_eq
      rw [List.length_eq_zero_iff] at hlength
      subst hlength
      exact .inr hflatten.symm
  · intro hsize
    exact ⟨chunks, hbatched.flatten_eq_iff.2 hsize, h⟩

end Publication

end CatalogSearch
