import CatalogSearch.Data.Sorting

/-!
# Sorted lists

Sorted lists, and the first elements of their keys. An order by which lists are sorted is total and
transitive, which `lexLe`, `byKey`, `descending` and `absentFirst` keep. A stable sort commutes with
filtering, and a sorted list without repetitions depends on its members alone
(`sortBy_eq_sortBy_iff`).
-/

namespace CatalogSearch

variable {α κ : Type} {le next : α → α → Bool}

/-- An order that tells of any two elements which one may come first. -/
structure TotalPreorder (le : α → α → Bool) : Prop where
  total : ∀ a b, le a b = true ∨ le b a = true
  trans : ∀ {a b c}, le a b = true → le b c = true → le a c = true

theorem textLe_eq_true {a b : String} : textLe a b = true ↔ a ≤ b := by
  rw [textLe, Bool.not_eq_true', decide_eq_false_iff_not, String.not_lt]

namespace TotalPreorder

theorem refl (h : TotalPreorder le) (a : α) : le a a = true := (h.total a a).elim id id

theorem of_not (h : TotalPreorder le) {a b : α} (hab : le a b ≠ true) : le b a = true :=
  (h.total a b).resolve_left hab

theorem intLe : TotalPreorder intLe where
  total a b := by simpa [CatalogSearch.intLe] using Int.le_total a b
  trans hab hbc := by
    simp only [CatalogSearch.intLe, decide_eq_true_eq] at hab hbc ⊢
    exact Int.le_trans hab hbc

theorem textLe : TotalPreorder textLe where
  total a b := by simpa only [textLe_eq_true] using String.le_total a b
  trans hab hbc := by
    rw [textLe_eq_true] at hab hbc ⊢
    exact String.le_trans hab hbc

theorem descending (h : TotalPreorder le) : TotalPreorder (descending le) :=
  ⟨fun a b => h.total b a, fun hab hbc => h.trans hbc hab⟩

theorem byKey {le : κ → κ → Bool} (h : TotalPreorder le) (key : α → κ) :
    TotalPreorder (byKey key le) :=
  ⟨fun a b => h.total (key a) (key b), fun hab hbc => h.trans hab hbc⟩

theorem byInt (key : α → Int) : TotalPreorder (CatalogSearch.byKey key CatalogSearch.intLe) :=
  intLe.byKey key

theorem byText (key : α → String) : TotalPreorder (CatalogSearch.byKey key CatalogSearch.textLe) :=
  textLe.byKey key

theorem absentFirst (h : TotalPreorder le) : TotalPreorder (absentFirst le) where
  total
    | none, _ => .inl rfl
    | some _, none => .inr rfl
    | some a, some b => h.total a b
  trans {a b c} hab hbc := by
    match a, b, c with
    | none, _, _ => rfl
    | some _, some _, some _ => exact h.trans hab hbc

end TotalPreorder

theorem lexLe_eq_true {a b : α} :
    lexLe le next a b = true ↔ le a b = true ∧ (le b a = true → next a b = true) := by
  simp only [lexLe, Bool.and_eq_true, Bool.or_eq_true, Bool.not_eq_true', ← Bool.not_eq_true]
  exact and_congr_right fun _ => Decidable.imp_iff_not_or.symm

theorem TotalPreorder.lexLe (h : TotalPreorder le) (hn : TotalPreorder next) :
    TotalPreorder (lexLe le next) where
  total a b := by
    simp only [lexLe_eq_true]
    by_cases hab : le a b = true
    · by_cases hba : le b a = true
      · exact (hn.total a b).imp (fun hn => ⟨hab, fun _ => hn⟩) fun hn => ⟨hba, fun _ => hn⟩
      · exact .inl ⟨hab, fun h => absurd h hba⟩
    · exact .inr ⟨h.of_not hab, fun h => absurd h hab⟩
  trans {a b c} hab hbc := by
    rw [lexLe_eq_true] at hab hbc ⊢
    refine ⟨h.trans hab.1 hbc.1, fun hca => hn.trans (hab.2 ?_) (hbc.2 ?_)⟩
    · exact h.trans hbc.1 hca
    · exact h.trans hca hab.1

/-! ### Sorted lists -/

theorem pairwise_insertBy (h : TotalPreorder le) (x : α) {l : List α}
    (hl : l.Pairwise (le · · = true)) : (insertBy le x l).Pairwise (le · · = true) := by
  induction l with
  | nil => exact List.pairwise_singleton _ x
  | cons y rest ih =>
    obtain ⟨hy, hrest⟩ := List.pairwise_cons.1 hl
    rw [insertBy]
    split
    · next hxy =>
      refine List.pairwise_cons.2 ⟨fun z hz => ?_, hl⟩
      rcases List.mem_cons.1 hz with rfl | hz
      · exact hxy
      · exact h.trans hxy (hy z hz)
    · next hxy =>
      refine List.pairwise_cons.2 ⟨fun z hz => ?_, ih hrest⟩
      rcases (mem_insertBy le x z rest).1 hz with rfl | hz
      · exact h.of_not hxy
      · exact hy z hz

theorem pairwise_sortBy (h : TotalPreorder le) (l : List α) :
    (sortBy le l).Pairwise (le · · = true) := by
  induction l with
  | nil => exact .nil
  | cons x rest ih => exact pairwise_insertBy h x ih

theorem filter_insertBy (h : TotalPreorder le) (p : α → Bool) (x : α) {l : List α}
    (hl : l.Pairwise (le · · = true)) :
    (insertBy le x l).filter p = if p x then insertBy le x (l.filter p) else l.filter p := by
  induction l with
  | nil => cases hx : p x <;> simp [insertBy, hx]
  | cons y rest ih =>
    obtain ⟨hy, hrest⟩ := List.pairwise_cons.1 hl
    rw [insertBy]
    split
    · next hxy =>
      -- what is left of the list starts with an element that `x` may stand before
      have hfront : insertBy le x ((y :: rest).filter p) = x :: (y :: rest).filter p := by
        cases hf : (y :: rest).filter p with
        | nil => rfl
        | cons z zs =>
          have hz : z ∈ y :: rest := (List.mem_filter.1 (hf ▸ List.mem_cons_self)).1
          have hxz : le x z = true := by
            rcases List.mem_cons.1 hz with rfl | hz
            · exact hxy
            · exact h.trans hxy (hy z hz)
          rw [insertBy, if_pos hxz]
      rw [hfront, List.filter_cons]
    · next hxy =>
      by_cases hpy : p y = true
      · rw [List.filter_cons_of_pos hpy, List.filter_cons_of_pos hpy, ih hrest, insertBy,
          if_neg hxy]
        split <;> rfl
      · rw [List.filter_cons_of_neg hpy, List.filter_cons_of_neg hpy, ih hrest]

/-- A stable sort of some elements is what the sort of all of them leaves of these. -/
theorem filter_sortBy (h : TotalPreorder le) (p : α → Bool) (l : List α) :
    (sortBy le l).filter p = sortBy le (l.filter p) := by
  induction l with
  | nil => rfl
  | cons x rest ih =>
    have hx : sortBy le (x :: rest) = insertBy le x (sortBy le rest) := rfl
    rw [hx, filter_insertBy h p x (pairwise_sortBy h rest), ih, List.filter_cons]
    split <;> rfl

/-- Of elements that all make something, inserting one is inserting what it makes, if the order of
what they make is theirs. -/
theorem filterMap_insertBy {β : Type} {le' : β → β → Bool} {f : α → Option β}
    (hf : ∀ a b x y, f a = some x → f b = some y → le' x y = le a b) {a : α} {x : β}
    (ha : f a = some x) {l : List α} (hl : ∀ b ∈ l, (f b).isSome) :
    (insertBy le a l).filterMap f = insertBy le' x (l.filterMap f) := by
  induction l with
  | nil => simp [insertBy, ha]
  | cons b rest ih =>
    obtain ⟨hb, hrest⟩ := List.forall_mem_cons.1 hl
    obtain ⟨y, hb⟩ := Option.isSome_iff_exists.1 hb
    rw [List.filterMap_cons_some hb, insertBy, insertBy, hf a b x y ha hb]
    split
    · rw [List.filterMap_cons_some ha, List.filterMap_cons_some hb]
    · rw [List.filterMap_cons_some hb, ih hrest]

theorem filterMap_sortBy_of_isSome {β : Type} {le' : β → β → Bool} {f : α → Option β}
    (hf : ∀ a b x y, f a = some x → f b = some y → le' x y = le a b) {l : List α}
    (hl : ∀ a ∈ l, (f a).isSome) : (sortBy le l).filterMap f = sortBy le' (l.filterMap f) := by
  induction l with
  | nil => rfl
  | cons a rest ih =>
    obtain ⟨ha, hrest⟩ := List.forall_mem_cons.1 hl
    obtain ⟨x, ha⟩ := Option.isSome_iff_exists.1 ha
    have hsorted : ∀ b ∈ sortBy le rest, (f b).isSome := by simpa using hrest
    rw [List.filterMap_cons_some ha]
    exact (filterMap_insertBy hf ha hsorted).trans (congrArg (insertBy le' x) (ih hrest))

/-- What sorted elements make is sorted if the order does not see the difference. -/
theorem filterMap_sortBy (h : TotalPreorder le) {β : Type} {le' : β → β → Bool} {f : α → Option β}
    (hf : ∀ a b x y, f a = some x → f b = some y → le' x y = le a b) (l : List α) :
    (sortBy le l).filterMap f = sortBy le' (l.filterMap f) := by
  have hfilter (l : List α) : (l.filter fun a => (f a).isSome).filterMap f = l.filterMap f := by
    rw [List.filterMap_filter]
    congr 1
    funext a
    cases f a <;> rfl
  rw [← hfilter (sortBy le l), ← hfilter l, filter_sortBy h]
  exact filterMap_sortBy_of_isSome hf fun a ha => (List.mem_filter.1 ha).2

/-- Elements may be replaced before they are sorted if the order does not see it. -/
theorem map_sortBy {β : Type} {le' : β → β → Bool} {f : α → β}
    (h : ∀ a b, le' (f a) (f b) = le a b) (l : List α) :
    (sortBy le l).map f = sortBy le' (l.map f) := by
  simp only [← List.filterMap_eq_map]
  apply filterMap_sortBy_of_isSome
  · intro a b x y hx hy
    cases hx
    cases hy
    exact h a b
  · exact fun _ _ => rfl

/-- Where a first key is the same for all elements, they are in the order of the other keys. -/
theorem pairwise_next {key : α → Int} {n : Int} {l : List α}
    (hl : l.Pairwise (lexLe (byKey key intLe) next · · = true))
    (hkey : ∀ a ∈ l, key a = n) : l.Pairwise (next · · = true) := by
  apply hl.imp_of_mem
  intro a b ha hb hab
  apply (lexLe_eq_true.1 hab).2
  simp [byKey, intLe, hkey a ha, hkey b hb]

theorem text_lt_of_le_of_ne {a b : String} (h : a ≤ b) (hne : a ≠ b) : a < b := by
  apply Decidable.byContradiction
  intro hlt
  exact hne (String.le_antisymm h (String.not_lt.1 hlt))

/-- Texts in order and without repetitions increase. -/
theorem pairwise_lt_of_nodup {l : List String} (hl : l.Pairwise (textLe · · = true))
    (hn : l.Nodup) : l.Pairwise (· < ·) :=
  (hl.and hn).imp fun h => text_lt_of_le_of_ne (textLe_eq_true.1 h.1) h.2

/-- If only equal elements may each come before the other, how they stood does not count. -/
theorem sortBy_eq_sortBy_iff (h : TotalPreorder le) {l l' : List α}
    (hl : ∀ a ∈ l, ∀ b ∈ l, le a b = true → le b a = true → a = b) :
    sortBy le l = sortBy le l' ↔ l.Perm l' := by
  constructor
  · intro heq
    exact (sortBy_perm le l).symm.trans (heq ▸ sortBy_perm le l')
  · intro hperm
    have hsorted : (sortBy le l).Perm (sortBy le l') :=
      (sortBy_perm le l).trans (hperm.trans (sortBy_perm le l').symm)
    refine hsorted.eq_of_pairwise (fun a b ha hb => ?_) (pairwise_sortBy h l) (pairwise_sortBy h l')
    exact hl a ((mem_sortBy le a l).1 ha) b (hperm.mem_iff.2 ((mem_sortBy le b l').1 hb))

/-- Elements in the order of a number that differs from element to element increase in it. -/
theorem pairwise_key_lt {key : α → Int} {l : List α}
    (hl : l.Pairwise (byKey key intLe · · = true)) (hn : (l.map key).Nodup) :
    l.Pairwise (key · < key ·) := by
  apply (hl.and (List.pairwise_map.1 hn)).imp
  intro a b ⟨hle, hne⟩
  exact Int.lt_iff_le_and_ne.2 ⟨of_decide_eq_true hle, hne⟩

theorem nodup_map_sortBy {β : Type} {f : α → β} {l : List α} :
    ((sortBy le l).map f).Nodup ↔ (l.map f).Nodup :=
  ((sortBy_perm le l).map f).nodup_iff

/-! ### The first element of each key -/

variable [DecidableEq κ] {key : α → κ}

/-- An element is the first of its key if no earlier one has it. -/
theorem mem_distinctBy {x : α} {l : List α} :
    x ∈ distinctBy key l ↔ ∃ l₁ l₂, l = l₁ ++ x :: l₂ ∧ key x ∉ l₁.map key := by
  constructor
  · intro h
    induction l with
    | nil => cases h
    | cons y rest ih =>
      rcases List.mem_cons.1 h with rfl | h
      · exact ⟨[], rest, rfl, List.not_mem_nil⟩
      · obtain ⟨h, hxy⟩ := List.mem_filter.1 h
        obtain ⟨l₁, l₂, rfl, hx⟩ := ih h
        exact ⟨y :: l₁, l₂, rfl, fun h =>
          (List.mem_cons.1 h).elim (by simpa using hxy) hx⟩
  · rintro ⟨l₁, l₂, rfl, hx⟩
    induction l₁ with
    | nil => exact List.mem_cons_self
    | cons y rest ih =>
      rw [List.map_cons, List.mem_cons, not_or] at hx
      exact List.mem_cons_of_mem _ (List.mem_filter.2 ⟨ih hx.2, by simpa using hx.1⟩)

/-- Every key has a first element. -/
theorem mem_map_distinctBy {k : κ} {l : List α} :
    k ∈ (distinctBy key l).map key ↔ k ∈ l.map key := by
  constructor
  · exact fun h => ((distinctBy_sublist key l).map key).subset h
  · intro h
    induction l with
    | nil => cases h
    | cons y rest ih =>
      by_cases hk : k = key y
      · exact hk ▸ List.mem_cons_self
      · obtain ⟨x, hx, rfl⟩ := List.mem_map.1 (ih ((List.mem_cons.1 h).resolve_left hk))
        exact List.mem_cons_of_mem _
          (List.mem_map_of_mem (List.mem_filter.2 ⟨hx, by simpa using hk⟩))

/-- Of the elements with one key, the first of its key is the first. -/
theorem exists_filter_key_eq_cons {x : α} {l : List α} (h : x ∈ distinctBy key l) :
    ∃ rest, l.filter (fun y => key y = key x) = x :: rest := by
  obtain ⟨l₁, l₂, rfl, hx⟩ := mem_distinctBy.1 h
  have hnone : l₁.filter (fun y => key y = key x) = [] := by
    apply List.filter_eq_nil_iff.2
    intro y hy heq
    exact hx (List.mem_map.2 ⟨y, hy, of_decide_eq_true heq⟩)
  refine ⟨l₂.filter fun y => key y = key x, ?_⟩
  rw [List.filter_append, hnone, List.nil_append, List.filter_cons_of_pos (by simp)]

/-- If each element is the first of its key, the keys differ. -/
theorem nodup_map_of_length_distinctBy {l : List α} (h : (distinctBy key l).length = l.length) :
    (l.map key).Nodup := by
  rw [← (distinctBy_sublist key l).eq_of_length h]
  exact nodup_map_distinctBy key l

/-- Without repetitions nothing is left out. -/
theorem distinct_of_nodup {l : List κ} (h : l.Nodup) : distinct l = l := by
  apply (distinctBy_sublist id l).eq_of_length
  exact ((List.perm_ext_iff_of_nodup (nodup_distinct l) h).2 fun x => mem_distinct x l).length_eq

theorem distinct_cons (x : κ) (l : List κ) :
    distinct (x :: l) = x :: (distinct l).filter (· ≠ x) := rfl

/-- Of a list that follows another one, the elements that are new are added. -/
theorem distinct_append (l m : List κ) :
    distinct (l ++ m) = distinct l ++ (distinct m).filter (· ∉ l) := by
  induction l with
  | nil =>
    rw [List.nil_append]
    exact (List.filter_eq_self.2 fun x _ => decide_eq_true List.not_mem_nil).symm
  | cons x rest ih =>
    rw [List.cons_append, distinct_cons, distinct_cons, ih, List.filter_append, List.filter_filter,
      List.cons_append]
    congr 2
    refine List.filter_congr fun y _ => ?_
    simp [not_or]

theorem distinct_distinct_append (l m : List κ) : distinct (distinct l ++ m) = distinct (l ++ m) := by
  simp only [distinct_append, distinct_of_nodup (nodup_distinct l), mem_distinct]

theorem distinct_append_distinct (l m : List κ) :
    distinct (l ++ distinct m) = distinct (l ++ m) := by
  simp only [distinct_append, distinct_of_nodup (nodup_distinct m)]

/-- In a sorted list the first element of a key comes before all others of that key. -/
theorem le_of_mem_distinctBy (h : TotalPreorder le) {l : List α}
    (hl : l.Pairwise (le · · = true)) {x y : α} (hx : x ∈ distinctBy key l) (hy : y ∈ l)
    (hk : key y = key x) : le x y = true := by
  obtain ⟨l₁, l₂, rfl, hfirst⟩ := mem_distinctBy.1 hx
  rcases List.mem_append.1 hy with hy | hy
  · exact absurd (List.mem_map.2 ⟨y, hy, hk⟩) hfirst
  · rcases List.mem_cons.1 hy with rfl | hy
    · exact h.refl y
    · exact List.rel_of_pairwise_cons (List.pairwise_append.1 hl).2.1 hy

end CatalogSearch
