import CatalogSearch.Proofs.Json.Floats
import CatalogSearch.Proofs.Json.Limits

/-!
# Values as JSON has them

There is no text for a number that is not finite, so null is written in its place. What is written
of a value has finite numbers only (`finite_written`) and is within the limits of the value
(`Within.written`); a value with finite numbers is written as it is (`Finite.written_eq`). In the
compact style both have one text (`print_written`), so that what is read of the text of a value is
what is written of it (`readWithin?_written`).
-/

namespace CatalogSearch.Json

variable {v : Json} {depth : Nat}

theorem writtenElements_eq_map (vs : List Json) : writtenElements vs = vs.map written := by
  induction vs with
  | nil => rfl
  | cons v vs ih => rw [writtenElements, ih, List.map_cons]

theorem writtenMembers_eq_map (ms : List (String × Json)) :
    writtenMembers ms = ms.map fun m => (m.1, m.2.written) := by
  induction ms with
  | nil => rfl
  | cons m ms ih => rw [writtenMembers, ih, List.map_cons]

theorem written_arr (vs : List Json) : (arr vs).written = arr (vs.map written) := by
  rw [written, writtenElements_eq_map]

theorem written_obj (ms : List (String × Json)) :
    (obj ms).written = obj (ms.map fun m => (m.1, m.2.written)) := by
  rw [written, writtenMembers_eq_map]

theorem finite_written (v : Json) : v.written.Finite := by
  induction v using induction with
  | null => exact .null
  | bool b => exact .bool b
  | int n => exact .int n
  | float x =>
    rw [written]
    split
    · next hx => exact .float hx
    · exact .null
  | str s => exact .str s
  | arr vs ih =>
    rw [written_arr]
    exact .arr (List.forall_mem_map.2 ih)
  | obj ms ih =>
    rw [written_obj]
    exact .obj (List.forall_mem_map.2 ih)

/-- Nothing is changed in a value with finite numbers. -/
theorem Finite.written_eq (h : v.Finite) : v.written = v := by
  induction v using induction with
  | null | bool | int | str => rfl
  | float x =>
    cases h with
    | float hx => exact if_pos hx
  | arr vs ih =>
    cases h with
    | arr hvs =>
      rw [written_arr]
      exact congrArg arr (OrderedMap.map_eq_self_iff.2 fun v hv => ih v hv (hvs v hv))
  | obj ms ih =>
    cases h with
    | obj hms =>
      rw [written_obj]
      refine congrArg obj (OrderedMap.map_eq_self_iff.2 fun m hm => ?_)
      exact Prod.ext rfl (ih m hm (hms m hm))

theorem Within.written (h : Within depth v) : Within depth v.written := by
  induction v using induction generalizing depth with
  | null | bool | int | str => exact h
  | float x =>
    rw [Json.written]
    split
    · exact within_float x
    · exact within_null
  | arr vs ih =>
    rw [written_arr]
    cases depth with
    | zero => rw [h.eq_nil]; exact within_nil
    | succ depth =>
      have hvs := within_arr.1 h
      exact within_arr.2 (List.forall_mem_map.2 fun v hv => ih v hv (hvs v hv))
  | obj ms ih =>
    rw [written_obj]
    cases depth with
    | zero => rw [h.eq_empty]; exact within_empty
    | succ depth =>
      have hms := within_obj.1 h
      exact within_obj.2 (List.forall_mem_map.2 fun m hm => ih m hm (hms m hm))

/-! ### Text -/

theorem writeElements_written {vs : List Json}
    (h : ∀ v ∈ vs, ∀ rest, write .compact v.written rest = write .compact v rest)
    (rest : List Char) :
    writeElements .compact (vs.map written) rest = writeElements .compact vs rest := by
  induction vs with
  | nil => rfl
  | cons v vs ih =>
    obtain ⟨hv, hvs⟩ := List.forall_mem_cons.1 h
    rw [List.map_cons, writeElements, writeElements, hv, ih hvs]

theorem writeMembers_written {ms : List (String × Json)}
    (h : ∀ m ∈ ms, ∀ rest, write .compact m.2.written rest = write .compact m.2 rest)
    (rest : List Char) :
    writeMembers .compact (ms.map fun m => (m.1, m.2.written)) rest =
      writeMembers .compact ms rest := by
  induction ms with
  | nil => rfl
  | cons m ms ih =>
    obtain ⟨hm, hms⟩ := List.forall_mem_cons.1 h
    rw [List.map_cons, writeMembers, writeMembers, hm, ih hms]

theorem write_written (v : Json) (rest : List Char) :
    write .compact v.written rest = write .compact v rest := by
  induction v using induction generalizing rest with
  | null | bool | int | str => rfl
  | float x =>
    rw [written]
    split
    · rfl
    · next hx => rw [write, write, writeFloat, if_neg hx, Style.compact]
  | arr vs ih =>
    rw [written_arr]
    cases vs with
    | nil => rfl
    | cons v vs =>
      obtain ⟨hv, hvs⟩ := List.forall_mem_cons.1 ih
      rw [List.map_cons, write, write, hv, writeElements_written hvs]
  | obj ms ih =>
    rw [written_obj]
    cases ms with
    | nil => rfl
    | cons m ms =>
      obtain ⟨hm, hms⟩ := List.forall_mem_cons.1 ih
      rw [List.map_cons, write, write, hm, writeMembers_written hms]

/-- The text of a value is that of the value as it is written. -/
theorem print_written (v : Json) : v.written.print = v.print :=
  congrArg String.ofList (write_written v [])

/-- The text of a value within the limits of records is read back as it is written. -/
theorem readWithin?_written (h : Within Limits.narrow.depth v) :
    readWithin? .narrow v.print = some v.written := by
  rw [← print_written]
  exact readWithin?_narrow (finite_written v) h.written

/-! ### Merging -/

theorem merged_arr_iff {vs : List Json} : (arr vs).merged = arr vs ↔ ∀ v ∈ vs, v.merged = v := by
  rw [merged, mergedElements_eq_map, arr.injEq]
  exact OrderedMap.map_eq_self_iff

theorem merged_obj_iff {ms : List (String × Json)} :
    (obj ms).merged = obj ms ↔ (ms.map Prod.fst).Nodup ∧ ∀ m ∈ ms, m.2.merged = m.2 := by
  have hfst : (ms.map fun m => (m.1, m.2.merged)).map Prod.fst = ms.map Prod.fst := List.map_map
  rw [merged, mergedMembers_eq_map, obj.injEq]
  constructor
  · intro h
    have hkeys := (OrderedMap.ofList (ms.map fun m => (m.1, m.2.merged))).nodup_keys
    rw [h] at hkeys
    rw [OrderedMap.entries_ofList (hfst ▸ hkeys)] at h
    exact ⟨hkeys, fun m hm => congrArg Prod.snd (OrderedMap.map_eq_self_iff.1 h m hm)⟩
  · rintro ⟨hkeys, hms⟩
    rw [OrderedMap.entries_ofList (hfst ▸ hkeys)]
    exact OrderedMap.map_eq_self_iff.2 fun m hm => Prod.ext rfl (hms m hm)

/-- If a value has each key of an object once, then it does as it is written. -/
theorem merged_written (h : v.merged = v) : v.written.merged = v.written := by
  induction v using induction with
  | null | bool | int | str => rfl
  | float x =>
    rw [written]
    split <;> rfl
  | arr vs ih =>
    have hvs := merged_arr_iff.1 h
    rw [written_arr, merged_arr_iff, List.forall_mem_map]
    exact fun v hv => ih v hv (hvs v hv)
  | obj ms ih =>
    obtain ⟨hkeys, hms⟩ := merged_obj_iff.1 h
    rw [written_obj, merged_obj_iff, List.forall_mem_map]
    refine ⟨?_, fun m hm => ih m hm (hms m hm)⟩
    rw [List.map_map]
    exact hkeys

end CatalogSearch.Json
