import CatalogSearch.Proofs.Json.Floats
import CatalogSearch.Proofs.Json.Limits
import CatalogSearch.Proofs.Schema.ReadBack
import CatalogSearch.Proofs.Text.IntLiteral

/-!
# Parts of a schema are stable

What is read of a value, in whatever spelling it stands there, is written within the limits that the
value was within, and what is written is read as the same again. So it is read from the text of what
was written: `Stable.kept_of_text`, `Kept.ofText_print`.
-/

namespace CatalogSearch

open Json (Within)

variable {α β : Type}

namespace Checked

/-- The value satisfies `P` if there is one. -/
def Satisfies (P : α → Prop) (x : Checked α) : Prop := ∀ a, x = .ok a → P a

variable {P : β → Prop} {Q : α → Prop} {x : Checked α}

theorem satisfies_wrong (places : List Place) : (wrong places).Satisfies Q := nofun

theorem satisfies_ok {a : α} (h : Q a) : (ok a).Satisfies Q := by
  intro a' ha
  cases ha
  exact h

theorem Satisfies.map {f : α → β} (hx : x.Satisfies Q) (hf : ∀ a, Q a → P (f a)) :
    (f <$> x).Satisfies P := by
  cases x with
  | ok a => exact satisfies_ok (hf a (hx a rfl))
  | wrong places => exact satisfies_wrong places

/-- The argument of a reading is what it is known to be when the function gets it. -/
theorem Satisfies.seq {f : Checked (α → β)} (hf : f.Satisfies fun g => ∀ a, Q a → P (g a))
    (hx : x.Satisfies Q) : (f <*> x).Satisfies P := by
  cases f with
  | ok g =>
    cases x with
    | ok a => exact satisfies_ok (hf g rfl a (hx a rfl))
    | wrong places => exact satisfies_wrong places
  | wrong places =>
    cases x with
    | ok a => exact satisfies_wrong places
    | wrong places' => exact satisfies_wrong (places ++ places')

theorem Satisfies.under (hx : x.Satisfies Q) (name : String) : (x.under name).Satisfies Q := by
  cases x with
  | ok a => exact hx
  | wrong places => exact satisfies_wrong _

theorem satisfies_ofOption {o : Option α} (h : ∀ a, o = some a → Q a) :
    (ofOption o).Satisfies Q := by
  cases o with
  | some a => exact satisfies_ok (h a rfl)
  | none => exact satisfies_wrong _

end Checked

namespace Schema

open Checked

variable {read : Json → Checked α} {write : α → Json} {depth : Nat} {a : α} {v : Json}

/-- What is written of a value is within the limits with so much depth left, and is read back. -/
structure Kept (read : Json → Checked α) (write : α → Json) (depth : Nat) (a : α) : Prop where
  within : Within depth (write a)
  readBack : read (write a) = .ok a

/-- What is read of a value within the limits is kept within them. -/
structure Stable (read : Json → Checked α) (write : α → Json) : Prop where
  keeps : ∀ {depth v}, Within depth v → (read v).Satisfies (Kept read write depth)

/-- What is kept within the limits of records is read from the text of what is written of it. -/
theorem Kept.ofText_print (h : Kept read write Json.Limits.narrow.depth a)
    (ha : (write a).Finite) : ofText read (write a).print = .ok a := by
  rw [ofText, Json.readWithin?_narrow ha h.within]
  exact h.readBack

/-- What is read from a text is what is read of a value within the limits of records. -/
theorem satisfies_ofText {P : α → Prop}
    (h : ∀ v, Within Json.Limits.narrow.depth v → (read v).Satisfies P) (s : String) :
    (ofText read s).Satisfies P := by
  rw [ofText]
  split
  · next v hv => exact h v (Json.within_of_readWithin? hv)
  · exact satisfies_wrong _

theorem Stable.kept_of_text (h : Stable read write) {s : String} (hs : ofText read s = .ok a) :
    Kept read write Json.Limits.narrow.depth a :=
  satisfies_ofText (fun _ hv => h.keeps hv) s a hs

/-! ### Parts -/

/-- What is always read back, and within the limits at every depth, is stable. -/
theorem stable_of_restores (hread : ∀ a, Restores read write a)
    (hwrite : ∀ depth a, Within depth (write a)) : Stable read write :=
  ⟨fun {depth _} _ a _ => ⟨hwrite depth a, (hread a).readBack⟩⟩

theorem stable_text : Stable text .str :=
  stable_of_restores restores_text fun _ => Json.within_str

theorem stable_boolean : Stable boolean .bool :=
  stable_of_restores restores_boolean fun _ => Json.within_bool

theorem stable_moment : Stable moment ofMoment :=
  stable_of_restores restores_moment fun _ _ => Json.within_str _

theorem digitRun_ascii {s : List Char} {ds : List Nat}
    (h : Text.digitRun Text.asciiDigitValue? s = some ds) : ds ≠ [] ∧ ∀ d ∈ ds, d < 10 := by
  have hdigit {c : Char} {d : Nat} (h : Text.asciiDigitValue? c = some d) : d < 10 := by
    rw [Text.asciiDigitValue?] at h
    split at h
    · next hc =>
      cases h
      exact Decimal.sub_zero_lt hc
    · cases h
  have hrun := Text.digitRun_of_eq_some h
  clear h
  induction hrun with
  | single hd => exact ⟨List.cons_ne_nil _ _, List.forall_mem_singleton.2 (hdigit hd)⟩
  | digit hd _ ih | underscore hd _ ih =>
    exact ⟨List.cons_ne_nil _ _, List.forall_mem_cons.2 ⟨hdigit hd, ih.2⟩⟩

theorem length_natOfRun? {s : List Char} {n : Nat} (h : natOfRun? s = some n) :
    (Decimal.ofNat n).length ≤ Json.numberLimit := by
  rw [natOfRun?] at h
  obtain ⟨ds, hds, h⟩ := Option.bind_eq_some_iff.1 h
  obtain ⟨hne, hdigits⟩ := digitRun_ascii hds
  split at h
  · cases h
  · next hlimit =>
    cases h
    have := Decimal.length_ofNat_value_le hdigits hne
    omega

theorem within_int_of_lt {n : Int} (h : n.natAbs < Nat.pow 10 19) : Within depth (.int n) :=
  Json.within_int.2 (Nat.le_trans (Decimal.length_ofNat_le h (by decide)) (by decide))

theorem within_intAfterSign? {negative : Bool} {s : List Char} {n : Int}
    (h : intAfterSign? negative s = some n) : Within depth (.int n) := by
  have hrun {negative : Bool} {s : List Char}
      (h : (natOfRun? s).map (Text.signed negative) = some n) : Within depth (.int n) := by
    obtain ⟨k, hk, rfl⟩ := Option.map_eq_some_iff.1 h
    rw [Json.within_int, Json.natAbs_signed]
    exact length_natOfRun? hk
  rw [intAfterSign?] at h
  split at h
  · split at h
    · split at h
      · cases h
        exact within_int_of_lt (by decide)
      · cases h
    · split at h
      · cases h
      · exact hrun h
    · exact hrun h
  · exact hrun h

theorem stable_integer : Stable integer .int := by
  refine ⟨fun {depth v} hv => ?_⟩
  have hkept {n : Int} (h : Within depth (.int n)) : Kept integer .int depth n := ⟨h, rfl⟩
  cases v with
  | int n => exact satisfies_ok (hkept hv)
  | bool b =>
    refine satisfies_ok (hkept (within_int_of_lt ?_))
    cases b <;> decide
  | float x =>
    refine satisfies_ofOption fun n hn => hkept (within_int_of_lt ?_)
    rw [intOfFloat?] at hn
    split at hn
    · next hx =>
      cases hn
      exact Nat.lt_trans hx.2 (by decide)
    · cases hn
  | str s =>
    refine satisfies_ofOption fun n hn => hkept ?_
    rw [intOfText?] at hn
    obtain ⟨whole, -, hwhole⟩ := Option.bind_eq_some_iff.1 hn
    exact within_intAfterSign? hwhole
  | null | arr | obj => exact satisfies_wrong _

theorem stable_any : Stable any id :=
  ⟨fun hv => satisfies_ok ⟨hv.merged, congrArg Checked.ok (Json.merged_merged _)⟩⟩

theorem Stable.nullable (h : Stable read write) (hnull : ∀ a, write a ≠ .null) :
    Stable (nullable read) (ofNullable write) := by
  have hsome {depth : Nat} {a : α} (ha : Kept read write depth a) :
      Kept (Schema.nullable read) (ofNullable write) depth (some a) := by
    refine ⟨ha.within, ?_⟩
    rw [ofNullable, Schema.nullable.eq_2 _ _ (hnull a), ha.readBack]
    rfl
  refine ⟨fun {depth v} hv => ?_⟩
  cases v with
  | null => exact satisfies_ok ⟨Json.within_null, rfl⟩
  | _ => exact (h.keeps hv).map fun a => hsome

theorem satisfies_elements (h : Stable read write) {vs : List Json}
    (hvs : ∀ v ∈ vs, Within depth v) (i : Nat) :
    (elements read i vs).Satisfies fun l => ∀ a ∈ l, Kept read write depth a := by
  induction vs generalizing i with
  | nil => exact satisfies_ok nofun
  | cons v vs ih =>
    obtain ⟨hv, hvs⟩ := List.forall_mem_cons.1 hvs
    refine .seq (((h.keeps hv).under _).map ?_) (ih hvs (i + 1))
    exact fun a ha l hl => List.forall_mem_cons.2 ⟨ha, hl⟩

theorem Stable.list (h : Stable read write) : Stable (list read) (ofList write) := by
  refine ⟨fun {depth v} hv => ?_⟩
  cases v with
  | arr vs =>
    cases depth with
    | zero =>
      rw [hv.eq_nil]
      exact satisfies_ok ⟨Json.within_nil, rfl⟩
    | succ depth =>
      intro l hl
      have hkept := satisfies_elements h (Json.within_arr.1 hv) 0 l hl
      exact ⟨Json.within_arr.2 (List.forall_mem_map.2 fun a ha => (hkept a ha).within),
        list_ofList fun a ha => (hkept a ha).readBack⟩
  | _ => exact satisfies_wrong _

theorem satisfies_members (h : Stable read write) {ms : List (String × Json)}
    (hms : ∀ m ∈ ms, Within depth m.2) :
    (members read ms).Satisfies fun es => ∀ e ∈ es, Kept read write depth e.2 := by
  induction ms with
  | nil => exact satisfies_ok nofun
  | cons m ms ih =>
    obtain ⟨hm, hms⟩ := List.forall_mem_cons.1 hms
    refine .seq (((h.keeps hm).under _).map ?_) (ih hms)
    exact fun a ha es hes => List.forall_mem_cons.2 ⟨ha, hes⟩

theorem Stable.dictionary (h : Stable read write) :
    Stable (dictionary read) (ofDictionary write) := by
  refine ⟨fun {depth v} hv => ?_⟩
  cases v with
  | obj ms =>
    cases depth with
    | zero =>
      rw [hv.eq_empty]
      exact satisfies_ok ⟨Json.within_empty, rfl⟩
    | succ depth =>
      refine (satisfies_members h (Json.within_obj.1 hv)).map fun es hes => ?_
      have hkept : ∀ e ∈ (OrderedMap.ofList es).entries, Kept read write depth e.2 :=
        fun e he => hes e (OrderedMap.mem_of_mem_ofList he)
      exact ⟨Json.within_obj.2 (List.forall_mem_map.2 fun e he => (hkept e he).within),
        dictionary_ofDictionary fun e he => (hkept e he).readBack⟩
  | _ => exact satisfies_wrong _

theorem stable_nullableText : Stable (nullable text) (ofNullable .str) :=
  stable_text.nullable fun _ => Json.noConfusion

theorem stable_nullableInteger : Stable (nullable integer) (ofNullable .int) :=
  stable_integer.nullable fun _ => Json.noConfusion

theorem stable_nullableMoment : Stable (nullable moment) (ofNullable ofMoment) :=
  stable_moment.nullable fun _ => Json.noConfusion

theorem stable_texts : Stable (list text) ofTexts := stable_text.list

theorem stable_integers : Stable (list integer) (ofList .int) := stable_integer.list

/-! ### Defaults -/

theorem kept_none : Kept (nullable read) (ofNullable write) depth none := ⟨Json.within_null, rfl⟩

theorem kept_nil : Kept (list read) (ofList write) depth [] := ⟨Json.within_nil, rfl⟩

theorem kept_empty : Kept (dictionary read) (ofDictionary write) depth ∅ := ⟨Json.within_empty, rfl⟩

theorem kept_zero : Kept integer .int depth 0 := ⟨within_int_of_lt (by decide), rfl⟩

/-! ### Fields -/

/-- What is read of an object is what is read of its fields, with one less depth for them. Without
members it has to miss a field. -/
theorem satisfies_object {P : Nat → α → Prop} (hempty : ∀ a, read (.obj []) ≠ .ok a)
    (h : ∀ {depth v}, Within (depth + 1) v → (read v).Satisfies (P (depth + 1)))
    (hv : Within depth v) : (object read v).Satisfies (P depth) := by
  cases v with
  | obj ms =>
    cases depth with
    | zero =>
      -- the object would have no members, and its fields no depth to be written in
      rw [hv.eq_empty]
      exact fun a ha => absurd ha (hempty a)
    | succ depth => exact h hv
  | _ => exact satisfies_wrong _

theorem Stable.object (hempty : ∀ a, read (.obj []) ≠ .ok a)
    (h : ∀ {depth v}, Within (depth + 1) v →
      (read v).Satisfies (Kept (object read) write (depth + 1))) :
    Stable (object read) write :=
  ⟨fun hv => satisfies_object hempty h hv⟩

theorem Stable.required (h : Stable read write) (hv : Within (depth + 1) v) (name : String) :
    (required v name read).Satisfies (Kept read write depth) := by
  rw [Schema.required]
  split
  · next x hx => exact (h.keeps (hv.member? hx)).under name
  · exact satisfies_wrong _

/-- The default of a field is written where the field was missing. -/
theorem Stable.optional (h : Stable read write) (hv : Within (depth + 1) v) (name : String)
    {default : α} (hdefault : Kept read write depth default) :
    (Schema.optional v name default read).Satisfies (Kept read write depth) := by
  rw [Schema.optional]
  split
  · next x hx => exact (h.keeps (hv.member? hx)).under name
  · exact satisfies_ok hdefault

end Schema

end CatalogSearch
