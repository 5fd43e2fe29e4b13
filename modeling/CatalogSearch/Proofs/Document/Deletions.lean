import CatalogSearch.Proofs.Document.LoaderFields
import Mathlib.Logic.Relation

/-!
# Collapsing step by step

A step deletes a value that has the text of the one before it. No step changes what a list collapses
to (`Deletes.collapse_eq`), steps lead to the collapsed list (`deletions_collapse`), and where none
is left the list is its own collapsed one (`Finished.collapse_eq`). So the order of the steps does
not count, and parts of a list may be collapsed before they are joined (`collapse_append`); with
them, parts of a version's fields may be reconciled before they are joined (`reconcile_piecewise`).
-/

namespace CatalogSearch

namespace Json

/-- One value is deleted that has the text of the one before it. -/
inductive Deletes : List Json → List Json → Prop
  | second {v w : Json} (vs : List Json) :
    w.canonicalText = v.canonicalText → Deletes (v :: w :: vs) (v :: vs)
  | cons (u : Json) {vs ws : List Json} : Deletes vs ws → Deletes (u :: vs) (u :: ws)

/-- Values are deleted one after the other, in any order. -/
abbrev Deletions : List Json → List Json → Prop := Relation.ReflTransGen Deletes

/-- No value is left to delete. -/
def Finished (vs : List Json) : Prop := ∀ ws, ¬Deletes vs ws

variable {vs vs' ws ws' : List Json}

/-! ### What a step keeps -/

/-- After the value before it the text of a deleted value is the last one, so that it would have
been left out. -/
theorem Deletes.collapseAfter_eq (h : Deletes vs ws) (last : Option String) :
    collapseAfter last ws = collapseAfter last vs := by
  induction h generalizing last with
  | @second v w vs htext =>
    have hskip : collapseAfter (some v.canonicalText) (w :: vs) =
        collapseAfter (some v.canonicalText) vs := by
      rw [collapseAfter, if_pos (congrArg some htext.symm)]
    rw [collapseAfter, collapseAfter, hskip]
    split
    · next hlast => rw [hlast, hskip]
    · rfl
  | cons u _ ih => rw [collapseAfter, collapseAfter, ih, ih]

theorem Deletes.collapse_eq (h : Deletes vs ws) : collapse ws = collapse vs :=
  h.collapseAfter_eq none

theorem Deletes.sublist (h : Deletes vs ws) : ws.Sublist vs := by
  induction h with
  | second vs _ => exact (List.sublist_cons_self _ vs).cons_cons _
  | cons u _ ih => exact ih.cons_cons u

theorem Deletes.length_eq (h : Deletes vs ws) : vs.length = ws.length + 1 := by
  induction h with
  | second => rfl
  | cons u _ ih => rw [List.length_cons, List.length_cons, ih]

theorem Deletes.head?_eq (h : Deletes vs ws) : ws.head? = vs.head? := by
  cases h <;> rfl

theorem Deletes.append (h : Deletes vs ws) (us : List Json) : Deletes (vs ++ us) (ws ++ us) := by
  induction h with
  | second vs htext => exact .second (vs ++ us) htext
  | cons u _ ih => exact .cons u ih

/-! ### Many steps -/

theorem deletions_cons (u : Json) (h : Deletions vs ws) : Deletions (u :: vs) (u :: ws) :=
  h.lift (u :: ·) fun _ _ => .cons u

theorem deletions_append (h : Deletions vs ws) (h' : Deletions vs' ws') :
    Deletions (vs ++ vs') (ws ++ ws') := by
  have hfront : Deletions (vs ++ vs') (ws ++ vs') := h.lift (· ++ vs') fun _ _ h => h.append vs'
  have hback (us : List Json) : Deletions (us ++ vs') (us ++ ws') := by
    induction us with
    | nil => exact h'
    | cons u us ih => exact deletions_cons u ih
  exact hfront.trans (hback ws)

/-- Many steps change nothing in what is left in the end, nor what is first. -/
theorem collapse_eq_of_deletions (h : Deletions vs ws) : collapse ws = collapse vs := by
  induction h with
  | refl => rfl
  | tail _ hstep ih => rw [hstep.collapse_eq, ih]

theorem sublist_of_deletions (h : Deletions vs ws) : ws.Sublist vs := by
  induction h with
  | refl => exact .refl vs
  | tail _ hstep ih => exact hstep.sublist.trans ih

theorem head?_eq_of_deletions (h : Deletions vs ws) : ws.head? = vs.head? := by
  induction h with
  | refl => rfl
  | tail _ hstep ih => rw [hstep.head?_eq, ih]

/-- After a first value the deletions go through the rest as collapsing does. -/
theorem deletions_collapseAfter (v : Json) (vs : List Json) :
    Deletions (v :: vs) (v :: collapseAfter (some v.canonicalText) vs) := by
  induction vs generalizing v with
  | nil => exact .refl
  | cons w vs ih =>
    rw [collapseAfter]
    by_cases htext : v.canonicalText = w.canonicalText
    · rw [if_pos (congrArg some htext)]
      exact .head (.second vs htext.symm) (ih v)
    · rw [if_neg (mt Option.some.inj htext)]
      exact deletions_cons v (ih w)

theorem deletions_collapse (vs : List Json) : Deletions vs (collapse vs) := by
  cases vs with
  | nil => exact .refl
  | cons v vs => exact deletions_collapseAfter v vs

/-! ### The end of all steps -/

theorem Finished.collapse_eq (h : Finished ws) : collapse ws = ws := by
  rcases (deletions_collapse ws).cases_head with heq | ⟨us, hstep, -⟩
  · exact heq.symm
  · exact absurd hstep (h us)

/-- A step from the collapsed list would lead to a shorter list that collapses to a longer one. -/
theorem finished_collapse (vs : List Json) : Finished (collapse vs) := by
  intro us hstep
  have hsame : collapse us = collapse vs := by
    rw [hstep.collapse_eq, collapse_eq_of_deletions (deletions_collapse vs)]
  have hle : (collapse us).length ≤ us.length :=
    (sublist_of_deletions (deletions_collapse us)).length_le
  have hlength := hstep.length_eq
  rw [hsame] at hle
  omega

/-- Whatever is deleted in whatever order, what is left in the end is the collapsed list. -/
theorem deletions_finished_iff : Deletions vs ws ∧ Finished ws ↔ ws = collapse vs := by
  constructor
  · rintro ⟨hsteps, hfinished⟩
    rw [← collapse_eq_of_deletions hsteps, hfinished.collapse_eq]
  · rintro rfl
    exact ⟨deletions_collapse vs, finished_collapse vs⟩

theorem collapse_collapse (vs : List Json) : collapse (collapse vs) = collapse vs :=
  collapse_eq_of_deletions (deletions_collapse vs)

/-- Parts of a list may be collapsed before they are joined. -/
theorem collapse_append (vs ws : List Json) :
    collapse (vs ++ ws) = collapse (collapse vs ++ collapse ws) :=
  (collapse_eq_of_deletions
    (deletions_append (deletions_collapse vs) (deletions_collapse ws))).symm

end Json

namespace FieldViews

open LoaderField

variable {views views' joined : FieldViews} {fields fields' : List LoaderField}

theorem merged_eq (h : reconcile fields = .ok views) (name : String) :
    (views.merged.find? name).getD [] = Json.collapse ((named name fields).flatMap values) := by
  rw [find?_merged h]
  split
  · next hnil => rw [hnil]; rfl
  · rfl

/-- The views of fields made from those of two parts: the names of the first part come first, and
the joined values of each name are collapsed once more. -/
structure JoinedFrom (views views' joined : FieldViews) : Prop where
  keys : joined.merged.keys = distinct (views.merged.keys ++ views'.merged.keys)
  merged : ∀ name, (joined.merged.find? name).getD [] =
    Json.collapse ((views.merged.find? name).getD [] ++ (views'.merged.find? name).getD [])

theorem exists_reconcile_append : (∃ joined, reconcile (fields ++ fields') = .ok joined) ↔
    (∃ views, reconcile fields = .ok views) ∧ ∃ views', reconcile fields' = .ok views' := by
  rw [exists_reconcile, exists_reconcile, exists_reconcile, List.forall_mem_append]

theorem joinedFrom_of_reconcile (h : reconcile fields = .ok views)
    (h' : reconcile fields' = .ok views') (hjoined : reconcile (fields ++ fields') = .ok joined) :
    JoinedFrom views views' joined where
  keys := by
    rw [(keys_reconcile h).1, (keys_reconcile h').1, (keys_reconcile hjoined).1, List.map_append,
      distinct_distinct_append, distinct_append_distinct]
  merged name := by
    have hnamed : named name (fields ++ fields') = named name fields ++ named name fields' :=
      List.filter_append fields fields'
    rw [merged_eq h, merged_eq h', merged_eq hjoined, hnamed, List.flatMap_append,
      Json.collapse_append]

/-- Collapsing can be done piece by piece. It gives the same for joined lists whether or not each is
collapsed before, changes no collapsed list, and leaves some of the values in their order, the first
one among them and no two neighbours with one text. Its result is the one list that is left when
values are deleted, in any order, that have the text of the one before them. So fields are
reconciled as their parts are reconciled and joined. -/
theorem reconcile_piecewise (xs ys : List Json) :
    Json.collapse (xs ++ ys) = Json.collapse (Json.collapse xs ++ Json.collapse ys) ∧
    Json.collapse (Json.collapse xs) = Json.collapse xs ∧
    (Json.collapse xs).Sublist xs ∧ (Json.collapse xs).head? = xs.head? ∧
    ((Json.collapse xs).IsChain fun v w => v.canonicalText ≠ w.canonicalText) ∧
    (∀ ws, Json.Deletions xs ws ∧ Json.Finished ws ↔ ws = Json.collapse xs) ∧
    ∀ fields fields' : List LoaderField,
      ((∃ joined, reconcile (fields ++ fields') = .ok joined) ↔
        (∃ views, reconcile fields = .ok views) ∧ ∃ views', reconcile fields' = .ok views') ∧
      ∀ views views' joined, reconcile fields = .ok views → reconcile fields' = .ok views' →
        reconcile (fields ++ fields') = .ok joined → JoinedFrom views views' joined := by
  refine ⟨Json.collapse_append xs ys, Json.collapse_collapse xs,
    Json.sublist_of_deletions (Json.deletions_collapse xs),
    Json.head?_eq_of_deletions (Json.deletions_collapse xs),
    (Json.collapsesTo_collapse xs).isChain, fun ws => Json.deletions_finished_iff,
    fun fields fields' => ⟨exists_reconcile_append, fun views views' joined => ?_⟩⟩
  exact joinedFrom_of_reconcile

/-- Two objects whose members stand in different orders, and a value with another text. -/
def sampleRun : List Json :=
  [.obj [("x", .int 1), ("y", .null)], .obj [("y", .null), ("x", .int 1)], .int 1]

/-- The second object is deleted; the sample fields go on from one part to the other with a run. -/
theorem reconcile_piecewise_sample :
    (Json.Deletions sampleRun [.obj [("x", .int 1), ("y", .null)], .int 1] ∧
      Json.Finished [.obj [("x", .int 1), ("y", .null)], .int 1]) ∧
    [.obj [("x", .int 1), ("y", .null)], .int 1] = Json.collapse sampleRun ∧
    ∃ views views', reconcile (sampleFields.take 2) = .ok views ∧
      reconcile (sampleFields.drop 2) = .ok views' ∧
      reconcile (sampleFields.take 2 ++ sampleFields.drop 2) = .ok sampleViews ∧
      JoinedFrom views views' sampleViews := by
  obtain ⟨-, -, -, -, -, hdeletions, hfields⟩ := reconcile_piecewise sampleRun []
  have hsteps : Json.Deletions sampleRun [.obj [("x", .int 1), ("y", .null)], .int 1] :=
    .single (.second [.int 1] (by decide +kernel))
  have hfinished : Json.Finished [.obj [("x", .int 1), ("y", .null)], .int 1] := by
    intro ws hstep
    cases hstep with
    | second _ htext => exact absurd htext (by decide +kernel)
    | cons _ hstep =>
      cases hstep with
      | cons _ hstep => cases hstep
  have hjoined : reconcile (sampleFields.take 2 ++ sampleFields.drop 2) = .ok sampleViews := by
    decide +kernel
  obtain ⟨hexists, hpieces⟩ := hfields (sampleFields.take 2) (sampleFields.drop 2)
  obtain ⟨⟨views, hviews⟩, views', hviews'⟩ := hexists.1 ⟨_, hjoined⟩
  exact ⟨⟨hsteps, hfinished⟩, (hdeletions _).1 ⟨hsteps, hfinished⟩, views, views', hviews, hviews',
    hjoined, hpieces views views' _ hviews hviews' hjoined⟩

end FieldViews

end CatalogSearch
