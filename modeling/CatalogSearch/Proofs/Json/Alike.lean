import CatalogSearch.Proofs.Data.Sorting
import CatalogSearch.Proofs.Json.Unambiguous
import CatalogSearch.Proofs.Json.Written
import Mathlib.Data.List.Forall2
import Mathlib.Data.List.Nodup
import Mathlib.Data.List.Perm.Subperm
import Mathlib.Tactic.MkIffOfInductiveProp

/-!
# Values up to the order of members

`Alike` says of two values that they have the same shape and the same leaves. With their members
sorted they are equal just then (`sorted_eq_iff`), and as a text belongs to one value only, so are
their canonical texts (`Regular.canonicalText_eq_iff`).
-/

namespace CatalogSearch.Json

/-- Two values have the same shape and the same leaves, the members of objects in any order. Leaves
of different kinds are never the same, nor are an integer and a floating-point number. -/
@[mk_iff]
inductive Alike : Json → Json → Prop
  | null : Alike .null .null
  | bool (b : Bool) : Alike (.bool b) (.bool b)
  | int (n : Int) : Alike (.int n) (.int n)
  | float (x : Binary64) : Alike (.float x) (.float x)
  | str (s : String) : Alike (.str s) (.str s)
  | arr {vs ws : List Json} : List.Forall₂ Alike vs ws → Alike (.arr vs) (.arr ws)
  | obj {ms ns : List (String × Json)} : (ms.map Prod.fst).Perm (ns.map Prod.fst) →
    (∀ k v w, (k, v) ∈ ms → (k, w) ∈ ns → Alike v w) → Alike (.obj ms) (.obj ns)

/-- A value as programs hold it: all numbers in it are finite, and no object has a key twice. -/
structure Regular (v : Json) : Prop where
  finite : v.Finite
  merged : v.merged = v

variable {v w : Json} {vs ws : List Json} {ms ns : List (String × Json)}

/-! ### Sorted members -/

theorem sortedElements_eq_map (vs : List Json) : sortedElements vs = vs.map sorted := by
  induction vs with
  | nil => rfl
  | cons v vs ih => rw [sortedElements, ih, List.map_cons]

theorem sortedMembers_eq_map (ms : List (String × Json)) :
    sortedMembers ms = ms.map fun m => (m.1, m.2.sorted) := by
  induction ms with
  | nil => rfl
  | cons m ms ih => rw [sortedMembers, ih, List.map_cons]

theorem sorted_arr (vs : List Json) : (arr vs).sorted = arr (vs.map sorted) := by
  rw [sorted, sortedElements_eq_map]

theorem sorted_obj (ms : List (String × Json)) :
    (obj ms).sorted = obj (sortBy memberLe (ms.map fun m => (m.1, m.2.sorted))) := by
  rw [sorted, sortedMembers_eq_map]

theorem totalPreorder_memberLe : TotalPreorder memberLe := .byText Prod.fst

/-- Of members with different keys no two may each come before the other. -/
theorem memberLe_antisymm (hkeys : (ms.map Prod.fst).Nodup) :
    ∀ m ∈ ms, ∀ n ∈ ms, memberLe m n = true → memberLe n m = true → m = n := by
  intro m hm n hn hmn hnm
  have hkey : m.1 = n.1 := String.le_antisymm (textLe_eq_true.1 hmn) (textLe_eq_true.1 hnm)
  exact List.inj_on_of_nodup_map hkeys hm hn hkey

theorem Finite.sorted (h : v.Finite) : v.sorted.Finite := by
  induction v using induction with
  | null | bool | int | float | str => exact h
  | arr vs ih =>
    cases h with
    | arr hvs =>
      rw [sorted_arr]
      exact .arr (List.forall_mem_map.2 fun v hv => ih v hv (hvs v hv))
  | obj ms ih =>
    cases h with
    | obj hms =>
      rw [sorted_obj]
      refine .obj fun m hm => ?_
      obtain ⟨n, hn, rfl⟩ := List.mem_map.1 ((mem_sortBy _ m _).1 hm)
      exact ih n hn (hms n hn)

/-! ### Comparing element by element and member by member -/

theorem map_eq_map_iff {α β : Type} {f : α → β} {l l' : List α} :
    l.map f = l'.map f ↔ List.Forall₂ (fun a b => f a = f b) l l' := by
  rw [← List.forall₂_eq_eq_eq, List.forall₂_map_left_iff, List.forall₂_map_right_iff]

theorem forall₂_congr_of_mem {α : Type} {R S : α → α → Prop} {l l' : List α}
    (h : ∀ a ∈ l, ∀ b ∈ l', R a b ↔ S a b) : List.Forall₂ R l l' ↔ List.Forall₂ S l l' := by
  rw [List.forall₂_iff_zip, List.forall₂_iff_zip]
  refine and_congr_right fun _ => ⟨fun hr a b hab => ?_, fun hs a b hab => ?_⟩
  · have hmem := List.of_mem_zip hab
    exact (h a hmem.1 b hmem.2).1 (hr hab)
  · have hmem := List.of_mem_zip hab
    exact (h a hmem.1 b hmem.2).2 (hs hab)

/-- Entries with different keys, taken by what a function gives for their values, are the same in
some order just if the keys are and each key has the same. -/
theorem perm_entries_iff {α β : Type} (f : α → β) {l l' : List (String × α)}
    (hl : (l.map Prod.fst).Nodup) (hl' : (l'.map Prod.fst).Nodup) :
    (l.map fun e => (e.1, f e.2)).Perm (l'.map fun e => (e.1, f e.2)) ↔
      (l.map Prod.fst).Perm (l'.map Prod.fst) ∧
        ∀ k a b, (k, a) ∈ l → (k, b) ∈ l' → f a = f b := by
  have hkeys (l : List (String × α)) :
      (l.map fun e => (e.1, f e.2)).map Prod.fst = l.map Prod.fst := List.map_map
  constructor
  · intro hperm
    have hkeysPerm := hperm.map Prod.fst
    rw [hkeys, hkeys] at hkeysPerm
    refine ⟨hkeysPerm, fun k a b ha hb => ?_⟩
    have hmem : (k, f a) ∈ l'.map fun e => (e.1, f e.2) :=
      hperm.subset (List.mem_map.2 ⟨(k, a), ha, rfl⟩)
    obtain ⟨⟨k', b'⟩, hb', heq⟩ := List.mem_map.1 hmem
    obtain ⟨rfl, hf⟩ := Prod.mk.inj heq
    cases List.inj_on_of_nodup_map hl' hb hb' rfl
    exact hf.symm
  · rintro ⟨hperm, hsame⟩
    have hnodup : (l.map fun e => (e.1, f e.2)).Nodup := .of_map Prod.fst (hkeys l ▸ hl)
    have hsubset : (l.map fun e => (e.1, f e.2)) ⊆ l'.map fun e => (e.1, f e.2) := by
      intro e he
      obtain ⟨⟨k, a⟩, ha, rfl⟩ := List.mem_map.1 he
      obtain ⟨⟨k', b⟩, hb, rfl⟩ := List.mem_map.1 (hperm.subset (List.mem_map_of_mem ha))
      exact List.mem_map.2 ⟨(k', b), hb, by rw [hsame k' a b ha hb]⟩
    refine (List.subperm_of_subset hnodup hsubset).perm_of_length_le ?_
    have hlength := hperm.length_eq
    rw [List.length_map, List.length_map] at hlength ⊢
    exact hlength.ge

/-! ### Texts of values that are alike -/

/-- Sorting the members is a normal form of values up to their order. -/
theorem sorted_eq_iff (hv : v.merged = v) (hw : w.merged = w) :
    v.sorted = w.sorted ↔ Alike v w := by
  induction v using induction generalizing w with
  | null | bool | int | float | str =>
    rw [alike_iff]
    cases w <;> simp [sorted, eq_comm]
  | arr vs ih =>
    rw [alike_iff]
    cases w with
    | arr ws =>
      have hvs := merged_arr_iff.1 hv
      have hws := merged_arr_iff.1 hw
      have helements : vs.map sorted = ws.map sorted ↔ List.Forall₂ Alike vs ws := by
        rw [map_eq_map_iff]
        exact forall₂_congr_of_mem fun v hv w hw => ih v hv (hvs v hv) (hws w hw)
      simp [sorted_arr, helements]
    | _ => simp [sorted]
  | obj ms ih =>
    rw [alike_iff]
    cases w with
    | obj ns =>
      obtain ⟨hmkeys, hms⟩ := merged_obj_iff.1 hv
      obtain ⟨hnkeys, hns⟩ := merged_obj_iff.1 hw
      have hkeys : ((ms.map fun m => (m.1, m.2.sorted)).map Prod.fst).Nodup := by
        rw [List.map_map]
        exact hmkeys
      have hmembers : sortBy memberLe (ms.map fun m => (m.1, m.2.sorted)) =
          sortBy memberLe (ns.map fun n => (n.1, n.2.sorted)) ↔
            (ms.map Prod.fst).Perm (ns.map Prod.fst) ∧
              ∀ k v w, (k, v) ∈ ms → (k, w) ∈ ns → Alike v w := by
        rw [sortBy_eq_sortBy_iff totalPreorder_memberLe (memberLe_antisymm hkeys),
          perm_entries_iff sorted hmkeys hnkeys]
        refine and_congr_right fun _ => forall₃_congr fun k v w => ?_
        exact forall₂_congr fun hm hn => ih _ hm (hms _ hm) (hns _ hn)
      simp [sorted_obj, hmembers]
    | _ => simp [sorted]

/-- Two values have one canonical text just if they are alike. -/
theorem Regular.canonicalText_eq_iff (hv : Regular v) (hw : Regular w) :
    v.canonicalText = w.canonicalText ↔ Alike v w := by
  have htexts : v.canonicalText = w.canonicalText ↔ v.sorted = w.sorted := by
    rw [canonicalText, canonicalText, printSpaced, printSpaced, String.ofList_inj]
    exact write_inj readable_spaced hv.finite.sorted hw.finite.sorted
  exact htexts.trans (sorted_eq_iff hv.merged hw.merged)

end CatalogSearch.Json
