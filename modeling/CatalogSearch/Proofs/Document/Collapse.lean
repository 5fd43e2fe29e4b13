import CatalogSearch.Document.Collapse
import Mathlib.Data.List.Chain

/-!
# Maximal runs

Collapsing by runs. A list of values falls into maximal runs of values with one text; of each run
the first value is left (`collapsesTo_iff`).
-/

namespace CatalogSearch.Json

/-- The runs of values with one text, as long as they can be. A run is its first value and those
after it. -/
structure MaximalRuns (vs : List Json) (runs : List (Json × List Json)) : Prop where
  flatten : runs.flatMap (fun run => run.1 :: run.2) = vs
  alike : ∀ run ∈ runs, ∀ v ∈ run.2, v.canonicalText = run.1.canonicalText
  differ : (runs.map Prod.fst).IsChain fun v w => v.canonicalText ≠ w.canonicalText

/-- The second list has the first values of the runs of the first one. -/
def CollapsesTo (vs ws : List Json) : Prop := ∃ runs, MaximalRuns vs runs ∧ ws = runs.map Prod.fst

variable {v w : Json} {vs ws same : List Json} {runs : List (Json × List Json)}

namespace MaximalRuns

theorem nil : MaximalRuns [] [] := ⟨rfl, nofun, .nil⟩

theorem single (v : Json) : MaximalRuns [v] [(v, [])] :=
  ⟨rfl, List.forall_mem_singleton.2 nofun, .singleton v⟩

/-- A value with the text of the first one makes the first run longer. -/
theorem insert (h : MaximalRuns (v :: vs) ((v, same) :: runs))
    (htext : w.canonicalText = v.canonicalText) :
    MaximalRuns (v :: w :: vs) ((v, w :: same) :: runs) where
  flatten := congrArg (v :: w :: ·) (List.cons.inj h.flatten).2
  alike :=
    have ⟨hsame, halike⟩ := List.forall_mem_cons.1 h.alike
    List.forall_mem_cons.2 ⟨List.forall_mem_cons.2 ⟨htext, hsame⟩, halike⟩
  differ := h.differ

/-- A value with another text than the first one starts a run. -/
theorem cons (h : MaximalRuns (w :: vs) ((w, same) :: runs))
    (htext : v.canonicalText ≠ w.canonicalText) :
    MaximalRuns (v :: w :: vs) ((v, []) :: (w, same) :: runs) where
  flatten := congrArg (v :: ·) h.flatten
  alike := List.forall_mem_cons.2 ⟨nofun, h.alike⟩
  differ := .cons_cons htext h.differ

end MaximalRuns

/-- After a first value, the first values of the runs after its own one are left. -/
theorem exists_runs_collapseAfter (v : Json) (vs : List Json) :
    ∃ same runs, MaximalRuns (v :: vs) ((v, same) :: runs) ∧
      collapseAfter (some v.canonicalText) vs = runs.map Prod.fst := by
  induction vs generalizing v with
  | nil => exact ⟨[], [], .single v, rfl⟩
  | cons w vs ih =>
    rw [collapseAfter]
    by_cases htext : v.canonicalText = w.canonicalText
    · obtain ⟨same, runs, hruns, hleft⟩ := ih v
      rw [if_pos (congrArg some htext), hleft]
      exact ⟨w :: same, runs, hruns.insert htext.symm, rfl⟩
    · obtain ⟨same, runs, hruns, hleft⟩ := ih w
      rw [if_neg (mt Option.some.inj htext), hleft]
      exact ⟨[], (w, same) :: runs, hruns.cons htext, rfl⟩

theorem collapsesTo_collapse (vs : List Json) : CollapsesTo vs (collapse vs) := by
  cases vs with
  | nil => exact ⟨[], .nil, rfl⟩
  | cons v vs =>
    obtain ⟨same, runs, hruns, hleft⟩ := exists_runs_collapseAfter v vs
    refine ⟨(v, same) :: runs, hruns, ?_⟩
    rw [collapse, collapseAfter, if_neg nofun, hleft, List.map_cons]

/-- Values with the text of the one before them are left out. -/
theorem collapseAfter_append {text : String} (h : ∀ v ∈ same, v.canonicalText = text) :
    collapseAfter (some text) (same ++ vs) = collapseAfter (some text) vs := by
  induction same with
  | nil => rfl
  | cons v same ih =>
    obtain ⟨hv, hsame⟩ := List.forall_mem_cons.1 h
    rw [List.cons_append, collapseAfter, if_pos (congrArg some hv.symm), ih hsame]

/-- Whatever the maximal runs are said to be, their first values are those that are left. -/
theorem MaximalRuns.collapseAfter_eq (h : MaximalRuns vs runs) {last : Option String}
    (hlast : ∀ run ∈ runs.head?, last ≠ some run.1.canonicalText) :
    collapseAfter last vs = runs.map Prod.fst := by
  induction runs generalizing vs last with
  | nil =>
    obtain rfl : vs = [] := h.flatten.symm
    rfl
  | cons run runs ih =>
    obtain rfl := h.flatten
    obtain ⟨hsame, halike⟩ := List.forall_mem_cons.1 h.alike
    obtain ⟨hnext, hdiffer⟩ := List.isChain_cons.1 h.differ
    rw [List.flatMap_cons, List.cons_append, collapseAfter, if_neg (hlast run rfl),
      collapseAfter_append hsame, ih ⟨rfl, halike, hdiffer⟩, List.map_cons]
    intro next hhead htext
    rw [List.head?_map] at hnext
    exact hnext next.1 (Option.mem_map_of_mem _ hhead) (Option.some.inj htext)

theorem collapsesTo_iff : CollapsesTo vs ws ↔ ws = collapse vs := by
  constructor
  · rintro ⟨runs, hruns, rfl⟩
    have hleft : collapseAfter none vs = runs.map Prod.fst :=
      hruns.collapseAfter_eq fun _ _ => nofun
    exact hleft.symm
  · rintro rfl
    exact collapsesTo_collapse vs

namespace CollapsesTo

/-- No two neighbours are left that have one text. -/
theorem isChain (h : CollapsesTo vs ws) :
    ws.IsChain fun v w => v.canonicalText ≠ w.canonicalText := by
  obtain ⟨runs, hruns, rfl⟩ := h
  exact hruns.differ

/-- Of every value one with its text is left. -/
theorem exists_of_mem (h : CollapsesTo vs ws) (hv : v ∈ vs) :
    ∃ w ∈ ws, v.canonicalText = w.canonicalText := by
  obtain ⟨runs, hruns, rfl⟩ := h
  rw [← hruns.flatten, List.mem_flatMap] at hv
  obtain ⟨run, hrun, hv⟩ := hv
  refine ⟨run.1, List.mem_map_of_mem hrun, ?_⟩
  rcases List.mem_cons.1 hv with rfl | hv
  · rfl
  · exact hruns.alike run hrun v hv

end CollapsesTo

end CatalogSearch.Json
