import CatalogSearch.Proofs.Data.OrderedMap
import CatalogSearch.Proofs.Json.ReadBack
import CatalogSearch.Proofs.Time.ReadBack
import CatalogSearch.Schema.Scalar

/-!
# Parts of a schema are read back

The parts of a schema are read back as they are written. What is written has no floating-point
numbers, so the text of it is read back too: `Restores.of_text`.
-/

namespace CatalogSearch

namespace Json

/-- The value has no floating-point number in it. -/
def Floatless (v : Json) : Prop := AllFloats (fun _ => False) v

theorem Floatless.allFloats {p : Binary64 → Prop} {v : Json} (h : Floatless v) : AllFloats p v :=
  h.imp fun _ => False.elim

end Json

namespace Schema

variable {α : Type} {read : Json → Checked α} {write : α → Json} {a : α} {l : List α}

/-- A value is read back as it was written, without floating-point numbers. -/
structure Restores (read : Json → Checked α) (write : α → Json) (a : α) : Prop where
  readBack : read (write a) = .ok a
  floatless : (write a).Floatless

/-- The text of what was written is read as nothing else. -/
theorem Restores.of_text (h : Restores read write a) {a' : α}
    (ha : ofText read (write a).print = .ok a') : a' = a := by
  rw [ofText, Json.readWithin?_print h.floatless.allFloats] at ha
  split at ha
  · next v hv =>
    split at hv
    · cases hv
      rw [h.readBack] at ha
      cases ha
      rfl
    · cases hv
  · cases ha

/-- The text of what was written within the limits of records is read. -/
theorem Restores.ofText_print (h : Restores read write a)
    (hfits : Json.fits .narrow Json.Limits.narrow.depth (write a) = true) :
    ofText read (write a).print = .ok a := by
  rw [ofText, Json.readWithin?_print h.floatless.allFloats, if_pos hfits]
  exact h.readBack

theorem restores_text (s : String) : Restores text .str s := ⟨rfl, .str s⟩

theorem restores_integer (n : Int) : Restores integer .int n := ⟨rfl, .int n⟩

theorem restores_boolean (b : Bool) : Restores boolean .bool b := ⟨rfl, .bool b⟩

theorem restores_moment (t : Moment) : Restores moment ofMoment t where
  readBack := by rw [ofMoment, moment, String.toList_ofList, Moment.read?_text, Checked.ofOption]
  floatless := .str _

theorem Restores.nullable {o : Option α} (h : ∀ a ∈ o, Restores read write a)
    (hnull : ∀ a, write a ≠ .null) : Restores (nullable read) (ofNullable write) o := by
  cases o with
  | none => exact ⟨rfl, .null⟩
  | some a =>
    refine ⟨?_, (h a rfl).floatless⟩
    rw [ofNullable, Schema.nullable.eq_2 _ _ (hnull a), (h a rfl).readBack]
    rfl

theorem restores_nullableText (o : Option String) : Restores (nullable text) (ofNullable .str) o :=
  Restores.nullable (fun s _ => restores_text s) fun _ => Json.noConfusion

theorem restores_nullableInteger (o : Option Int) :
    Restores (nullable integer) (ofNullable .int) o :=
  Restores.nullable (fun n _ => restores_integer n) fun _ => Json.noConfusion

theorem restores_nullableMoment (o : Option Moment) :
    Restores (nullable moment) (ofNullable ofMoment) o :=
  Restores.nullable (fun t _ => restores_moment t) fun _ => Json.noConfusion

theorem elements_map {f : α → α} (h : ∀ a ∈ l, read (write a) = .ok (f a)) (i : Nat) :
    elements read i (l.map write) = .ok (l.map f) := by
  induction l generalizing i with
  | nil => rfl
  | cons a l ih =>
    obtain ⟨ha, hl⟩ := List.forall_mem_cons.1 h
    rw [List.map_cons, elements, ha, ih hl]
    rfl

theorem list_ofList (h : ∀ a ∈ l, read (write a) = .ok a) :
    list read (ofList write l) = .ok l := by
  rw [ofList, list, elements_map (f := id) h, List.map_id]

theorem allFloats_ofList {p : Binary64 → Prop} (h : ∀ a ∈ l, (write a).AllFloats p) :
    (ofList write l).AllFloats p :=
  .arr (List.forall_mem_map.2 h)

theorem restores_list (h : ∀ a ∈ l, Restores read write a) :
    Restores (list read) (ofList write) l :=
  ⟨list_ofList fun a ha => (h a ha).readBack, allFloats_ofList fun a ha => (h a ha).floatless⟩

theorem restores_texts (l : List String) : Restores (list text) ofTexts l :=
  restores_list fun s _ => restores_text s

theorem restores_integers (l : List Int) : Restores (list integer) (ofList .int) l :=
  restores_list fun n _ => restores_integer n

theorem members_map {f : α → α} {es : List (String × α)}
    (h : ∀ e ∈ es, read (write e.2) = .ok (f e.2)) :
    members read (es.map fun e => (e.1, write e.2)) = .ok (es.map fun e => (e.1, f e.2)) := by
  induction es with
  | nil => rfl
  | cons e es ih =>
    obtain ⟨he, hes⟩ := List.forall_mem_cons.1 h
    rw [List.map_cons, members, he, ih hes]
    rfl

theorem dictionary_mapValues {f : α → α} {m : OrderedMap String α}
    (h : ∀ e ∈ m.entries, read (write e.2) = .ok (f e.2)) :
    dictionary read (ofDictionary write m) = .ok (m.mapValues f) := by
  rw [ofDictionary, dictionary, members_map h]
  exact congrArg Checked.ok (m.mapValues f).ofList_entries

theorem dictionary_ofDictionary {m : OrderedMap String α}
    (h : ∀ e ∈ m.entries, read (write e.2) = .ok e.2) :
    dictionary read (ofDictionary write m) = .ok m := by
  have hid : m.mapValues id = m := OrderedMap.mapValues_eq_self_iff.2 fun _ _ => rfl
  rw [dictionary_mapValues (f := id) h, hid]

theorem allFloats_ofDictionary {p : Binary64 → Prop} {m : OrderedMap String α}
    (h : ∀ e ∈ m.entries, (write e.2).AllFloats p) : (ofDictionary write m).AllFloats p :=
  .obj (List.forall_mem_map.2 h)

theorem restores_dictionary {m : OrderedMap String α}
    (h : ∀ e ∈ m.entries, Restores read write e.2) :
    Restores (dictionary read) (ofDictionary write) m :=
  ⟨dictionary_ofDictionary fun e he => (h e he).readBack,
    allFloats_ofDictionary fun e he => (h e he).floatless⟩

theorem restores_textDictionary (m : OrderedMap String String) :
    Restores (dictionary text) (ofDictionary .str) m :=
  restores_dictionary fun e _ => restores_text e.2

/-! ### Fields -/

/-- If the keys of an object differ, each member is found. -/
theorem member?_of_mem {ms : List (String × Json)} (hkeys : (ms.map Prod.fst).Nodup)
    {e : String × Json} (he : e ∈ ms) : (Json.obj ms).member? e.1 = some e.2 := by
  obtain ⟨before, after, hms⟩ := List.append_of_mem (List.mem_reverse.2 he)
  have hnodup : (ms.reverse.map Prod.fst).Nodup := by
    rw [List.map_reverse]
    exact (List.reverse_perm _).nodup_iff.2 hkeys
  rw [hms, List.map_append, List.nodup_append] at hnodup
  rw [Json.member?, hms]
  refine List.lookup_eq_some_iff.2 ⟨before, after, rfl, fun e' he' => bne_iff_ne.2 fun h => ?_⟩
  exact hnodup.2.2 _ (List.mem_map_of_mem he') e.1 (by simp) h.symm

variable {v x : Json}

theorem object_eq (v : Json) (h : ∃ ms, v = .obj ms) : object read v = read v := by
  obtain ⟨ms, rfl⟩ := h
  rfl

theorem required_eq (name : String) (ha : read x = .ok a) (hv : v.member? name = some x) :
    required v name read = .ok a := by
  rw [required, hv]
  exact congrArg (Checked.under name) ha

theorem optional_eq {default : α} (name : String) (ha : read x = .ok a)
    (hv : v.member? name = some x) : Schema.optional v name default read = .ok a := by
  rw [Schema.optional, hv]
  exact congrArg (Checked.under name) ha

end Schema

end CatalogSearch
