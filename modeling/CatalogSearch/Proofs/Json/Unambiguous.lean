import CatalogSearch.Proofs.Json.Floats
import CatalogSearch.Proofs.Json.Limits

/-!
# Texts of values are unambiguous

A text belongs to one value only. In every style that is read back, two values with finite numbers
that have one text are equal (`write_inj`): a reader without limits gives both of them for it.
-/

namespace CatalogSearch.Json

variable {st : Style} {v w : Json} {depth : Nat}

/-- Limits that take every number. How deep a value may be is given to the reader apart. -/
def Limits.unbounded : Limits := ⟨0, fun _ _ => true⟩

/-- What is inside an array or object is smaller than it, so that its size is depth enough. -/
theorem fits_unbounded (h : sizeOf v ≤ depth) : fits .unbounded depth v = true := by
  induction v using induction generalizing depth with
  | null | bool | float | str => rw [fits]
  | int n => rfl
  | arr vs ih =>
    rw [arr.sizeOf_spec] at h
    obtain ⟨depth, rfl⟩ : ∃ d, depth = d + 1 := ⟨depth - 1, by omega⟩
    refine fits_arr_iff.2 fun v hv => ih v hv ?_
    have := List.sizeOf_lt_of_mem hv
    omega
  | obj ms ih =>
    rw [obj.sizeOf_spec] at h
    obtain ⟨depth, rfl⟩ : ∃ d, depth = d + 1 := ⟨depth - 1, by omega⟩
    refine fits_obj_iff.2 fun m hm => ih m hm ?_
    have := List.sizeOf_lt_of_mem hm
    rw [Prod.mk.sizeOf_spec] at this
    omega

theorem readValue_write (hst : st.Readable) (hv : v.Finite) (h : sizeOf v ≤ depth) :
    readValue .unbounded ((write st v []).length + 1) depth (write st v []) = some (v, []) := by
  have hfloats := hv.imp fun _ => floatReadBack (l := .unbounded) (fun _ _ => rfl) st
  have hread := readsBack hst hfloats ((write st v []).length + 1) depth [] [] nofun nofun (by simp)
  rwa [List.nil_append, if_pos (fits_unbounded h)] at hread

theorem write_inj (hst : st.Readable) (hv : v.Finite) (hw : w.Finite) :
    write st v [] = write st w [] ↔ v = w := by
  constructor
  · intro htext
    -- one reader with depth enough for both
    have hread := readValue_write hst hv (Nat.le_add_right (sizeOf v) (sizeOf w))
    rw [htext, readValue_write hst hw (Nat.le_add_left (sizeOf w) (sizeOf v))] at hread
    exact (congrArg Prod.fst (Option.some.inj hread)).symm
  · rintro rfl
    rfl

end CatalogSearch.Json
