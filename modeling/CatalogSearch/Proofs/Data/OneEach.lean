import CatalogSearch.Proofs.Data.Sorting
import Mathlib.Data.List.Nodup
import Mathlib.Data.List.Perm.Basic

/-!
# One element for each row

`OneEach rows makes l` says that the rows can be ordered so that each of them makes the element of
the list in its place. Sorting and filtering keep it, and a join whose references all find their
targets gives it (`oneEach_join`). `InOrder` says of such a list in which order its rows are.
-/

namespace CatalogSearch

variable {ρ α β τ : Type}

/-- The list has one element for each row, which the row makes, in any order. -/
def OneEach (rows : List ρ) (makes : ρ → α → Prop) (l : List α) : Prop :=
  ∃ rows', rows'.Perm rows ∧ List.Forall₂ makes rows' l

namespace OneEach

variable {rows : List ρ} {l l' : List α} {makes : ρ → α → Prop}

theorem perm (h : OneEach rows makes l) (hl : l.Perm l') : OneEach rows makes l' := by
  obtain ⟨rows', hperm, hmakes⟩ := h
  obtain ⟨rows'', hmakes', hperm'⟩ := List.perm_comp_forall₂ hl.symm hmakes.flip
  exact ⟨rows'', hperm'.trans hperm, hmakes'.flip⟩

theorem of_forall₂ (h : List.Forall₂ makes rows l) : OneEach rows makes l := ⟨rows, .refl _, h⟩

theorem of_map {f : ρ → α} (h : ∀ r ∈ rows, makes r (f r)) : OneEach rows makes (rows.map f) :=
  of_forall₂ (List.forall₂_map_right_iff.2 (List.forall₂_same.2 h))

theorem of_flatMap {f : ρ → List α} (h : ∀ r ∈ rows, ∃ a, f r = [a] ∧ makes r a) :
    OneEach rows makes (rows.flatMap f) := by
  apply of_forall₂
  induction rows with
  | nil => exact .nil
  | cons r rest ih =>
    obtain ⟨⟨a, ha, hmakes⟩, hrest⟩ := List.forall_mem_cons.1 h
    rw [List.flatMap_cons, ha]
    exact .cons hmakes (ih hrest)

theorem map {makes' : ρ → β → Prop} {f : α → β} (h : OneEach rows makes l)
    (hf : ∀ r a, makes r a → makes' r (f a)) : OneEach rows makes' (l.map f) := by
  obtain ⟨rows', hperm, hmakes⟩ := h
  exact ⟨rows', hperm, List.forall₂_map_right_iff.2 (hmakes.imp hf)⟩

theorem filter {p : ρ → Bool} {q : α → Bool} (h : OneEach rows makes l)
    (hpq : ∀ r a, makes r a → p r = q a) : OneEach (rows.filter p) makes (l.filter q) := by
  obtain ⟨rows', hperm, hmakes⟩ := h
  refine ⟨rows'.filter p, hperm.filter p, List.rel_filter ?_ hmakes⟩
  intro r a ha
  simp [hpq r a ha]

theorem exists_of_mem (h : OneEach rows makes l) {a : α} (ha : a ∈ l) : ∃ r ∈ rows, makes r a := by
  obtain ⟨rows', hperm, hmakes⟩ := h
  obtain ⟨i, hi, rfl⟩ := List.getElem_of_mem ha
  have hi' : i < rows'.length := hmakes.length_eq ▸ hi
  exact ⟨rows'[i], hperm.subset (List.getElem_mem hi'), hmakes.get hi' hi⟩

/-- If what is made tells a key of the row, rows of different keys make nothing twice. -/
theorem nodup {κ : Type} {key : ρ → κ} (h : OneEach rows makes l) (hrows : (rows.map key).Nodup)
    (hkey : ∀ r r' a, makes r a → makes r' a → key r = key r') : l.Nodup := by
  obtain ⟨rows', hperm, hmakes⟩ := h
  have hrows' : (rows'.map key).Nodup := (hperm.map key).nodup_iff.2 hrows
  clear hrows hperm
  induction hmakes with
  | nil => exact List.nodup_nil
  | @cons r a rest l ha hrest ih =>
    obtain ⟨hr, hrows'⟩ := List.nodup_cons.1 hrows'
    refine List.nodup_cons.2 ⟨?_, ih hrows'⟩
    intro hmem
    obtain ⟨r', hr', ha'⟩ := (of_forall₂ hrest).exists_of_mem hmem
    exact hr (List.mem_map.2 ⟨r', hr', hkey r' r a ha' ha⟩)

end OneEach

/-! ### Rows in order -/

/-- The first element stands before the second one: by the order and, where this does not tell them
apart, by id. -/
def Precedes (le : ρ → ρ → Bool) (id : ρ → Int) (a b : ρ) : Prop :=
  le a b = true ∧ (le b a = true → id a < id b)

/-- The list has what each row makes, in the order of the rows. -/
def InOrder (rows : List ρ) (le : ρ → ρ → Bool) (id : ρ → Int) (make : ρ → α) (l : List α) : Prop :=
  ∃ rows' : List ρ, rows'.Perm rows ∧ rows'.Pairwise (Precedes le id) ∧ rows'.map make = l

/-- Rows of one owner, sorted by owner, by an order and by id, are in this order. -/
theorem inOrder_sortBy {rows : List ρ} {le : ρ → ρ → Bool} (hle : TotalPreorder le)
    {owner id : ρ → Int} {n : Int} (howner : ∀ r ∈ rows, owner r = n)
    (hid : (rows.map id).Nodup) (make : ρ → α) :
    InOrder rows le id make
      ((sortBy (lexLe (byKey owner intLe) (lexLe le (byKey id intLe))) rows).map make) := by
  refine ⟨_, sortBy_perm _ rows, ?_, rfl⟩
  have hsorted := pairwise_sortBy (.lexLe (.byInt owner) (.lexLe hle (.byInt id))) rows
  have hown := pairwise_next hsorted fun r hr => howner r ((mem_sortBy ..).1 hr)
  apply (hown.and (List.pairwise_map.1 (nodup_map_sortBy.2 hid))).imp
  intro a b ⟨hab, hne⟩
  obtain ⟨hle, hnext⟩ := lexLe_eq_true.1 hab
  refine ⟨hle, ?_⟩
  intro hba
  exact Int.lt_iff_le_and_ne.2 ⟨of_decide_eq_true (hnext hba), hne⟩

/-! ### Joins -/

theorem filter_key_eq_singleton {targets : List τ} {id : τ → Int} (hid : (targets.map id).Nodup)
    {t : τ} (ht : t ∈ targets) : (targets.filter fun t' => decide (id t' = id t)) = [t] := by
  induction targets with
  | nil => cases ht
  | cons t' rest ih =>
    obtain ⟨ht', hrest⟩ := List.nodup_cons.1 hid
    rcases List.mem_cons.1 ht with rfl | ht
    · have hnone : (rest.filter fun t' => decide (id t' = id t)) = [] := by
        apply List.filter_eq_nil_iff.2
        intro t' hmem heq
        exact ht' (List.mem_map.2 ⟨t', hmem, of_decide_eq_true heq⟩)
      rw [List.filter_cons_of_pos (by simp), hnone]
    · have hne : id t' ≠ id t := fun heq => ht' (List.mem_map.2 ⟨t, ht, heq.symm⟩)
      rw [List.filter_cons_of_neg (by simpa using hne), ih hrest ht]

theorem find?_key_eq_some {targets : List τ} {id : τ → Int} (hid : (targets.map id).Nodup) {n : Int}
    {t : τ} : (targets.find? fun t => decide (id t = n)) = some t ↔ t ∈ targets ∧ id t = n := by
  constructor
  · intro h
    have hkey := List.find?_some h
    exact ⟨List.mem_of_find?_eq_some h, of_decide_eq_true hkey⟩
  · rintro ⟨ht, rfl⟩
    have hsome : (targets.find? fun t' => decide (id t' = id t)).isSome :=
      List.find?_isSome.2 ⟨t, ht, by simp⟩
    obtain ⟨t', ht'⟩ := Option.isSome_iff_exists.1 hsome
    have hkey := List.find?_some ht'
    obtain rfl := List.inj_on_of_nodup_map hid (List.mem_of_find?_eq_some ht') ht
      (of_decide_eq_true hkey)
    exact ht'

/-- Of targets with different ids a look-up by id finds all that there are. -/
theorem filter_key_eq_toList {targets : List τ} {id : τ → Int} (hid : (targets.map id).Nodup)
    (n : Int) : (targets.filter fun t => decide (id t = n)) =
      (targets.find? fun t => decide (id t = n)).toList := by
  cases hfind : targets.find? fun t => decide (id t = n) with
  | none => exact List.filter_eq_nil_iff.2 (List.find?_eq_none.1 hfind)
  | some t =>
    obtain ⟨ht, rfl⟩ := (find?_key_eq_some hid).1 hfind
    exact filter_key_eq_singleton hid ht

section Join

variable {rows : List ρ} {targets : List τ} {reference : ρ → Int} {id : τ → Int}

/-- A row makes an element of a join with the target that it refers to. -/
def Joins (targets : List τ) (reference : ρ → Int) (id : τ → Int) (make : ρ → τ → α) (r : ρ)
    (a : α) : Prop :=
  ∃ t ∈ targets, id t = reference r ∧ make r t = a

/-- Where all references find their targets, a join has one element for each row. -/
theorem oneEach_join (hid : (targets.map id).Nodup)
    (hrows : ∀ r ∈ rows, reference r ∈ targets.map id) (make : ρ → τ → α) :
    OneEach rows (Joins targets reference id make)
      (rows.flatMap fun r => (targets.filter fun t => id t = reference r).map (make r)) := by
  apply OneEach.of_flatMap
  intro r hr
  obtain ⟨t, ht, heq⟩ := List.mem_map.1 (hrows r hr)
  refine ⟨make r t, ?_, t, ht, heq, rfl⟩
  rw [← heq, filter_key_eq_singleton hid ht, List.map_singleton]

/-- Rows with different references make elements of different names, if targets have different
names. -/
theorem nodup_names_of_joins {make : ρ → τ → α} {name : τ → String} {nameOf : α → String}
    {l : List α} (h : OneEach rows (Joins targets reference id make) l)
    (hrows : (rows.map reference).Nodup) (hnames : (targets.map name).Nodup)
    (hmake : ∀ r t, nameOf (make r t) = name t) : (l.map nameOf).Nodup := by
  have hmade : OneEach rows (fun r n => ∃ t ∈ targets, id t = reference r ∧ name t = n)
      (l.map nameOf) := by
    apply h.map
    rintro r _ ⟨t, ht, heq, rfl⟩
    exact ⟨t, ht, heq, (hmake r t).symm⟩
  apply hmade.nodup hrows
  rintro r r' _ ⟨t, ht, heq, rfl⟩ ⟨t', ht', heq', hname⟩
  obtain rfl := List.inj_on_of_nodup_map hnames ht' ht hname
  rw [← heq, ← heq']

end Join

end CatalogSearch
