import CatalogSearch.Proofs.Data.OrderedMap
import CatalogSearch.Proofs.Json.ReadBack

/-!
# Limits of values

What is read from a text within the limits of records is a value within these limits
(`within_of_readWithin?`), and so is the merged value (`Within.merged`). Merging a value a second
time changes nothing (`merged_merged`).
-/

namespace CatalogSearch.Json

open Text

variable {l : Limits} {depth : Nat}

/-- A value is within the limits of records, with so much depth left. -/
def Within (depth : Nat) (v : Json) : Prop := fits .narrow depth v = true

theorem within_null : Within depth .null := by rw [Within, fits]

theorem within_bool (b : Bool) : Within depth (.bool b) := by rw [Within, fits]

theorem within_float (x : Binary64) : Within depth (.float x) := by rw [Within, fits]

theorem within_str (s : String) : Within depth (.str s) := by rw [Within, fits]

theorem within_int {n : Int} :
    Within depth (.int n) ↔ (Decimal.ofNat n.natAbs).length ≤ numberLimit := by
  rw [Within, fits]
  exact decide_eq_true_iff

theorem within_nil : Within depth (.arr []) := by rw [Within, fits]

theorem within_empty : Within depth (.obj []) := by rw [Within, fits]

theorem fitsElements_iff {vs : List Json} :
    fitsElements l depth vs = true ↔ ∀ v ∈ vs, fits l depth v = true := by
  induction vs with
  | nil => exact ⟨nofun, fun _ => by rw [fitsElements]⟩
  | cons v vs ih => rw [fitsElements, Bool.and_eq_true, ih, List.forall_mem_cons]

theorem fitsMembers_iff {ms : List (String × Json)} :
    fitsMembers l depth ms = true ↔ ∀ m ∈ ms, fits l depth m.2 = true := by
  induction ms with
  | nil => exact ⟨nofun, fun _ => by rw [fitsMembers]⟩
  | cons m ms ih => rw [fitsMembers, Bool.and_eq_true, ih, List.forall_mem_cons]

theorem fits_arr_iff {vs : List Json} :
    fits l (depth + 1) (.arr vs) = true ↔ ∀ v ∈ vs, fits l depth v = true := by
  cases vs with
  | nil => exact ⟨fun _ => nofun, fun _ => by rw [fits]⟩
  | cons v vs => rw [fits, Bool.and_eq_true, fitsElements_iff, List.forall_mem_cons]

theorem fits_obj_iff {ms : List (String × Json)} :
    fits l (depth + 1) (.obj ms) = true ↔ ∀ m ∈ ms, fits l depth m.2 = true := by
  cases ms with
  | nil => exact ⟨fun _ => nofun, fun _ => by rw [fits]⟩
  | cons m ms => rw [fits, Bool.and_eq_true, fitsMembers_iff, List.forall_mem_cons]

theorem within_arr {vs : List Json} :
    Within (depth + 1) (.arr vs) ↔ ∀ v ∈ vs, Within depth v := fits_arr_iff

theorem within_obj {ms : List (String × Json)} :
    Within (depth + 1) (.obj ms) ↔ ∀ m ∈ ms, Within depth m.2 := fits_obj_iff

/-- With no depth left an array is empty. -/
theorem Within.eq_nil {vs : List Json} (h : Within 0 (.arr vs)) : vs = [] := by
  cases vs with
  | nil => rfl
  | cons v vs => rw [Within, fits] at h; cases h

/-- With no depth left an object is empty. -/
theorem Within.eq_empty {ms : List (String × Json)} (h : Within 0 (.obj ms)) : ms = [] := by
  cases ms with
  | nil => rfl
  | cons m ms => rw [Within, fits] at h; cases h

theorem Within.member? {v x : Json} {name : String} (h : Within (depth + 1) v)
    (hx : v.member? name = some x) : Within depth x := by
  cases v with
  | obj ms =>
    obtain ⟨before, after, hms, -⟩ := List.lookup_eq_some_iff.1 hx
    have hmem : (name, x) ∈ ms.reverse := hms ▸ List.mem_append_right _ List.mem_cons_self
    exact within_obj.1 h _ (List.mem_reverse.1 hmem)
  | _ => cases hx

/-! ### Reading -/

variable {fuel : Nat} {s rest : List Char} {v : Json}

theorem natAbs_signed (negative : Bool) (n : Nat) : (signed negative n).natAbs = n := by
  rw [signed]
  split <;> omega

theorem within_of_readUnsigned {negative : Bool}
    (h : readUnsigned .narrow negative s = some (v, rest)) : Within depth v := by
  rw [readUnsigned] at h
  obtain ⟨⟨whole, s'⟩, hwhole, h⟩ := Option.bind_eq_some_iff.1 h
  obtain ⟨hne, hdigits⟩ := Scientific.digits_of_readDigits hwhole
  dsimp only at h
  split at h
  · cases h
  · obtain ⟨⟨fraction, s''⟩, -, h⟩ := Option.bind_eq_some_iff.1 h
    obtain ⟨⟨exponent, rest'⟩, -, h⟩ := Option.bind_eq_some_iff.1 h
    dsimp only at h
    split at h
    · cases h
    · next htakes =>
      split at h
      · cases h
        have hlimit : whole.length ≤ numberLimit := by
          simpa [Limits.narrow] using htakes
        rw [within_int, natAbs_signed]
        exact Nat.le_trans (Decimal.length_ofNat_digitsValue_le hdigits hne) hlimit
      · cases h
        exact within_float _

theorem within_of_readNumber (h : readNumber .narrow s = some (v, rest)) : Within depth v := by
  rw [readNumber.eq_def] at h
  split at h
  · cases h
    exact within_float _
  · cases h
    exact within_float _
  · cases h
    exact within_float _
  · exact within_of_readUnsigned h
  · exact within_of_readUnsigned h

/-- What the readers of values, elements and members give with so much fuel is within the limits. -/
structure ReadsWithin (fuel : Nat) : Prop where
  value : ∀ {depth s v rest}, readValue .narrow fuel depth s = some (v, rest) → Within depth v
  elements : ∀ {depth s vs rest}, readElements .narrow fuel depth s = some (vs, rest) →
    ∀ v ∈ vs, Within depth v
  members : ∀ {depth s ms rest}, readMembers .narrow fuel depth s = some (ms, rest) →
    ∀ m ∈ ms, Within depth m.2

theorem ReadsWithin.value_succ (hr : ReadsWithin fuel)
    (h : readValue .narrow (fuel + 1) depth s = some (v, rest)) : Within depth v := by
  rw [readValue.eq_def] at h
  dsimp only at h
  split at h
  · obtain ⟨r, -, hv⟩ := Option.map_eq_some_iff.1 h
    cases hv
    exact within_str _
  · split at h
    · cases h
      exact within_nil
    · cases h
    · obtain ⟨r, hread, hv⟩ := Option.map_eq_some_iff.1 h
      cases hv
      exact within_arr.2 (hr.elements hread)
  · split at h
    · cases h
      exact within_empty
    · cases h
    · obtain ⟨r, hread, hv⟩ := Option.map_eq_some_iff.1 h
      cases hv
      exact within_obj.2 (hr.members hread)
  · cases h
    exact within_null
  · cases h
    exact within_bool _
  · cases h
    exact within_bool _
  · exact within_of_readNumber h

theorem ReadsWithin.elements_succ (hr : ReadsWithin fuel) {vs : List Json}
    (h : readElements .narrow (fuel + 1) depth s = some (vs, rest)) : ∀ v ∈ vs, Within depth v := by
  rw [readElements] at h
  obtain ⟨⟨v, s'⟩, hv, h⟩ := Option.bind_eq_some_iff.1 h
  dsimp only at h
  split at h
  · obtain ⟨⟨vs', s''⟩, hvs, h⟩ := Option.bind_eq_some_iff.1 h
    cases h
    exact List.forall_mem_cons.2 ⟨hr.value hv, hr.elements hvs⟩
  · cases h
    exact List.forall_mem_cons.2 ⟨hr.value hv, List.forall_mem_nil _⟩
  · cases h

theorem ReadsWithin.members_succ (hr : ReadsWithin fuel) {ms : List (String × Json)}
    (h : readMembers .narrow (fuel + 1) depth s = some (ms, rest)) :
    ∀ m ∈ ms, Within depth m.2 := by
  rw [readMembers] at h
  split at h
  · obtain ⟨⟨key, s'⟩, -, h⟩ := Option.bind_eq_some_iff.1 h
    dsimp only at h
    split at h
    · obtain ⟨⟨v, s''⟩, hv, h⟩ := Option.bind_eq_some_iff.1 h
      dsimp only at h
      split at h
      · obtain ⟨⟨ms', s'''⟩, hms, h⟩ := Option.bind_eq_some_iff.1 h
        cases h
        exact List.forall_mem_cons.2 ⟨hr.value hv, hr.members hms⟩
      · cases h
        exact List.forall_mem_cons.2 ⟨hr.value hv, List.forall_mem_nil _⟩
      · cases h
    · cases h
  · cases h

theorem readsWithin (fuel : Nat) : ReadsWithin fuel := by
  induction fuel with
  | zero =>
    refine ⟨fun h => ?_, fun h => ?_, fun h => ?_⟩
    · rw [readValue] at h; cases h
    · rw [readElements] at h; cases h
    · rw [readMembers] at h; cases h
  | succ fuel ih => exact ⟨ih.value_succ, ih.elements_succ, ih.members_succ⟩

/-- The value of a whole text is within the limits it was read within. -/
theorem within_of_readWithin? {s : String} (h : readWithin? .narrow s = some v) :
    Within Limits.narrow.depth v := by
  rw [readWithin?] at h
  split at h
  · next hv =>
    split at h
    · cases h
      exact (readsWithin _).value hv
    · cases h
  · cases h

/-! ### Merging -/

theorem mergedElements_eq_map (vs : List Json) : mergedElements vs = vs.map merged := by
  induction vs with
  | nil => rfl
  | cons v vs ih => rw [mergedElements, ih, List.map_cons]

theorem mergedMembers_eq_map (ms : List (String × Json)) :
    mergedMembers ms = ms.map fun m => (m.1, m.2.merged) := by
  induction ms with
  | nil => rfl
  | cons m ms ih => rw [mergedMembers, ih, List.map_cons]

/-- The values that merging leaves in an object are those of its members, merged. -/
theorem exists_of_mem_merged {ms : List (String × Json)} {m : String × Json}
    (hm : m ∈ (OrderedMap.ofList (mergedMembers ms)).entries) :
    ∃ m' ∈ ms, m'.2.merged = m.2 := by
  have hm' := OrderedMap.mem_of_mem_ofList hm
  rw [mergedMembers_eq_map] at hm'
  obtain ⟨m', hmem, rfl⟩ := List.mem_map.1 hm'
  exact ⟨m', hmem, rfl⟩

theorem Within.merged (h : Within depth v) : Within depth v.merged := by
  induction v using induction generalizing depth with
  | null | bool | int | float | str => exact h
  | arr vs ih =>
    rw [Json.merged, mergedElements_eq_map]
    cases depth with
    | zero => rw [h.eq_nil]; exact within_nil
    | succ depth =>
      have hvs := within_arr.1 h
      exact within_arr.2 (List.forall_mem_map.2 fun v hv => ih v hv (hvs v hv))
  | obj ms ih =>
    rw [Json.merged]
    cases depth with
    | zero => rw [h.eq_empty]; exact within_empty
    | succ depth =>
      have hms := within_obj.1 h
      refine within_obj.2 fun m hm => ?_
      obtain ⟨m', hmem, heq⟩ := exists_of_mem_merged hm
      exact heq ▸ ih m' hmem (hms m' hmem)

theorem merged_merged (v : Json) : v.merged.merged = v.merged := by
  induction v using induction with
  | null | bool | int | float | str => rfl
  | arr vs ih =>
    rw [merged, mergedElements_eq_map, merged, mergedElements_eq_map, List.map_map]
    exact congrArg Json.arr (List.map_congr_left ih)
  | obj ms ih =>
    -- what is left has each key once, so that writing it again leaves it as it is
    have hfixed : ∀ m ∈ (OrderedMap.ofList (mergedMembers ms)).entries, m.2.merged = m.2 := by
      intro m hm
      obtain ⟨m', hmem, heq⟩ := exists_of_mem_merged hm
      rw [← heq, ih m' hmem]
    have hentries : mergedMembers (OrderedMap.ofList (mergedMembers ms)).entries =
        (OrderedMap.ofList (mergedMembers ms)).entries := by
      rw [mergedMembers_eq_map]
      refine Eq.trans (List.map_congr_left (g := id) fun m hm => ?_) (List.map_id _)
      exact Prod.ext rfl (hfixed m hm)
    rw [merged, merged, hentries, OrderedMap.ofList_entries]

end CatalogSearch.Json
