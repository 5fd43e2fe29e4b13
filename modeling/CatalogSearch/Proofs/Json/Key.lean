import CatalogSearch.Json.Key
import CatalogSearch.Proofs.Json.Alike

/-!
# Keys separate values

A value has a key just if it is `Printable`: its integers have few enough digits, and it is nested
no deeper than the stack of the printer allows (`exists_key_iff`). Two such values have one key just
if they are alike (`texts_separate`). Whatever is within the limits of records is printable
(`Within.printable`).
-/

namespace CatalogSearch.Json

/-- The integers of a value have at most `Text.digitLimit` digits, and at most so many arrays and
objects are inside one another. -/
inductive Printable : Nat → Json → Prop
  | null {levels : Nat} : Printable levels .null
  | bool {levels : Nat} (b : Bool) : Printable levels (.bool b)
  | int {levels : Nat} {n : Int} : n.natAbs < Nat.pow 10 Text.digitLimit → Printable levels (.int n)
  | float {levels : Nat} (x : Binary64) : Printable levels (.float x)
  | str {levels : Nat} (s : String) : Printable levels (.str s)
  | arr {levels : Nat} {vs : List Json} :
    (∀ v ∈ vs, Printable levels v) → Printable (levels + 1) (.arr vs)
  | obj {levels : Nat} {ms : List (String × Json)} :
    (∀ m ∈ ms, Printable levels m.2) → Printable (levels + 1) (.obj ms)

variable {levels levels' depth : Nat} {v w : Json} {s t : String}

theorem printable_int {n : Int} :
    Printable levels (.int n) ↔ n.natAbs < Nat.pow 10 Text.digitLimit :=
  ⟨fun | .int h => h, .int⟩

theorem printable_arr {vs : List Json} :
    Printable (levels + 1) (.arr vs) ↔ ∀ v ∈ vs, Printable levels v :=
  ⟨fun | .arr h => h, .arr⟩

theorem printable_obj {ms : List (String × Json)} :
    Printable (levels + 1) (.obj ms) ↔ ∀ m ∈ ms, Printable levels m.2 :=
  ⟨fun | .obj h => h, .obj⟩

theorem Printable.mono (h : Printable levels v) (hle : levels ≤ levels') :
    Printable levels' v := by
  induction v using induction generalizing levels levels' with
  | null => exact .null
  | bool b => exact .bool b
  | int n => exact .int (printable_int.1 h)
  | float x => exact .float x
  | str s => exact .str s
  | arr vs ih =>
    cases h with
    | arr hvs =>
      obtain ⟨levels', rfl⟩ := Nat.exists_eq_add_of_le' (Nat.le_of_add_left_le hle)
      exact .arr fun v hv => ih v hv (hvs v hv) (Nat.le_of_succ_le_succ hle)
  | obj ms ih =>
    cases h with
    | obj hms =>
      obtain ⟨levels', rfl⟩ := Nat.exists_eq_add_of_le' (Nat.le_of_add_left_le hle)
      exact .obj fun m hm => ih m hm (hms m hm) (Nat.le_of_succ_le_succ hle)

/-! ### Going through a value -/

theorem checkElements_eq_ok {vs : List Json} :
    checkElements levels vs = .ok () ↔ ∀ v ∈ vs, checkKey levels v = .ok () := by
  induction vs with
  | nil => exact ⟨nofun, fun _ => by rw [checkElements]⟩
  | cons v vs ih =>
    rw [checkElements, List.forall_mem_cons, ← ih]
    cases checkKey levels v with
    | error e => exact iff_of_false nofun fun h => nomatch h.1
    | ok u => exact ⟨fun h => ⟨rfl, h⟩, fun h => h.2⟩

theorem checkMembers_eq_ok {ms : List (String × Json)} :
    checkMembers levels ms = .ok () ↔ ∀ m ∈ ms, checkKey levels m.2 = .ok () := by
  induction ms with
  | nil => exact ⟨nofun, fun _ => by rw [checkMembers]⟩
  | cons m ms ih =>
    rw [checkMembers, List.forall_mem_cons, ← ih]
    cases checkKey levels m.2 with
    | error e => exact iff_of_false nofun fun h => nomatch h.1
    | ok u => exact ⟨fun h => ⟨rfl, h⟩, fun h => h.2⟩

theorem checkKey_eq_ok : checkKey levels v = .ok () ↔ Printable levels v := by
  induction v using induction generalizing levels with
  | null => exact iff_of_true (by rw [checkKey]) .null
  | bool b => exact iff_of_true (by rw [checkKey]) (.bool b)
  | float x => exact iff_of_true (by rw [checkKey]) (.float x)
  | str s => exact iff_of_true (by rw [checkKey]) (.str s)
  | int n =>
    rw [checkKey, printable_int, ← Decimal.length_ofNat_le_iff (by decide), ← Nat.not_lt]
    split
    · next hlong => exact iff_of_false nofun (not_not.2 hlong)
    · next hshort => exact iff_of_true rfl hshort
  | arr vs ih =>
    cases levels with
    | zero => rw [checkKey]; exact iff_of_false nofun nofun
    | succ levels =>
      rw [checkKey, checkElements_eq_ok, printable_arr]
      exact forall₂_congr fun v hv => ih v hv
  | obj ms ih =>
    cases levels with
    | zero => rw [checkKey]; exact iff_of_false nofun nofun
    | succ levels =>
      rw [checkKey, checkMembers_eq_ok, printable_obj]
      exact forall₂_congr fun m hm => ih m hm

/-- Sorting changes neither the integers nor the nesting. -/
theorem printable_sorted : Printable levels v.sorted ↔ Printable levels v := by
  induction v using induction generalizing levels with
  | null | bool | int | float | str => exact .rfl
  | arr vs ih =>
    rw [sorted_arr]
    cases levels with
    | zero => exact iff_of_false nofun nofun
    | succ levels =>
      rw [printable_arr, printable_arr, List.forall_mem_map]
      exact forall₂_congr fun v hv => ih v hv
  | obj ms ih =>
    rw [sorted_obj]
    cases levels with
    | zero => exact iff_of_false nofun nofun
    | succ levels =>
      have hmembers : (∀ m ∈ sortBy memberLe (ms.map fun m => (m.1, m.2.sorted)),
          Printable levels m.2) ↔ ∀ m ∈ ms, Printable levels m.2.sorted := by
        simp only [mem_sortBy, List.forall_mem_map]
      rw [printable_obj, printable_obj, hmembers]
      exact forall₂_congr fun m hm => ih m hm

/-! ### Keys -/

theorem key_eq_ok_iff : v.key levels = .ok s ↔ Printable levels v ∧ v.canonicalText = s := by
  rw [key, ← printable_sorted, ← checkKey_eq_ok]
  cases checkKey levels v.sorted with
  | error e => exact iff_of_false nofun fun h => nomatch h.1
  | ok u => exact ⟨fun h => ⟨rfl, Except.ok.inj h⟩, fun h => congrArg Except.ok h.2⟩

theorem exists_key_iff : (∃ s, v.key levels = .ok s) ↔ Printable levels v :=
  ⟨fun ⟨_, hs⟩ => (key_eq_ok_iff.1 hs).1, fun h => ⟨_, key_eq_ok_iff.2 ⟨h, rfl⟩⟩⟩

/-- What is within the limits of records has a key. An empty array or object may be one level deeper
than its depth says. -/
theorem Within.printable (h : Within depth v) (hlevels : depth < levels) : Printable levels v := by
  induction v using induction generalizing depth levels with
  | null => exact .null
  | bool b => exact .bool b
  | int n => exact .int ((Decimal.length_ofNat_le_iff (by decide)).1 (within_int.1 h))
  | float x => exact .float x
  | str s => exact .str s
  | arr vs ih =>
    obtain ⟨levels, rfl⟩ := Nat.exists_eq_add_of_le' (Nat.zero_lt_of_lt hlevels)
    cases depth with
    | zero => rw [h.eq_nil]; exact .arr nofun
    | succ depth =>
      exact .arr fun v hv => ih v hv (within_arr.1 h v hv) (Nat.lt_of_succ_lt_succ hlevels)
  | obj ms ih =>
    obtain ⟨levels, rfl⟩ := Nat.exists_eq_add_of_le' (Nat.zero_lt_of_lt hlevels)
    cases depth with
    | zero => rw [h.eq_empty]; exact .obj nofun
    | succ depth =>
      exact .obj fun m hm => ih m hm (within_obj.1 h m hm) (Nat.lt_of_succ_lt_succ hlevels)

/-- The values that have keys are the printable ones, and their keys separate them: two of them have
one key just if they are alike. Collapsing compares just these texts. -/
theorem texts_separate (levels : Nat) :
    (∀ v : Json, (∃ s, v.key levels = .ok s) ↔ Printable levels v) ∧
    (∀ (v : Json) (s : String), v.key levels = .ok s → v.canonicalText = s) ∧
    (∀ v w, Regular v → Regular w → Printable levels v → Printable levels w →
      (v.key levels = w.key levels ↔ Alike v w)) ∧
    (∀ v w, Regular v → Regular w → Alike v w → (Printable levels v ↔ Printable levels w)) ∧
    (∀ n x b, ¬Alike (.int n) (.float x) ∧ ¬Alike (.int n) (.bool b) ∧
      ¬Alike (.float x) (.bool b)) ∧
    ∀ s t, ¬Alike .null (.str s) ∧ (Alike (.str s) (.str t) ↔ s = t) := by
  refine ⟨fun _ => exists_key_iff, fun _ _ hs => (key_eq_ok_iff.1 hs).2,
    fun v w hv hw hpv hpw => ?_, fun v w hv hw h => ?_, fun n x b => ⟨nofun, nofun, nofun⟩,
    fun s t => ⟨nofun, fun | .str _ => rfl, fun | rfl => .str s⟩⟩
  · rw [key_eq_ok_iff.2 ⟨hpv, rfl⟩, key_eq_ok_iff.2 ⟨hpw, rfl⟩, Except.ok.injEq]
    exact hv.canonicalText_eq_iff hw
  · rw [← printable_sorted, (sorted_eq_iff hv.merged hw.merged).2 h, printable_sorted]

/-- An integer, a number and a boolean that are close to one another. -/
def sampleTags : Json := .arr [.int 1, .float (.ofDecimal false 1 0), .bool true]

theorem finite_sampleTags : sampleTags.Finite := by
  refine .arr ?_
  simp only [List.forall_mem_cons]
  exact ⟨.int _, .float (by decide +kernel), .bool _, nofun⟩

def sampleNested : Json := .obj [("tags", sampleTags), ("none", .null)]

def sampleReordered : Json := .obj [("none", .null), ("tags", sampleTags)]

theorem texts_separate_reordered : Regular sampleNested ∧ Regular sampleReordered ∧
    Printable 2 sampleNested ∧ Printable 2 sampleReordered ∧
    sampleNested.key 2 = sampleReordered.key 2 ∧ Alike sampleNested sampleReordered := by
  have hnested : Regular sampleNested :=
    ⟨.obj (List.forall_mem_cons.2 ⟨finite_sampleTags, List.forall_mem_singleton.2 .null⟩),
      by decide +kernel⟩
  have hreordered : Regular sampleReordered :=
    ⟨.obj (List.forall_mem_cons.2 ⟨.null, List.forall_mem_singleton.2 finite_sampleTags⟩),
      by decide +kernel⟩
  obtain ⟨hkeys, -, hseparate, -⟩ := texts_separate 2
  have hnestedKey := (hkeys sampleNested).1
    ⟨"\x7b\"none\": null, \"tags\": [1, 1.0, true]\x7d", by decide +kernel⟩
  have hreorderedKey := (hkeys sampleReordered).1
    ⟨"\x7b\"none\": null, \"tags\": [1, 1.0, true]\x7d", by decide +kernel⟩
  have hkey : sampleNested.key 2 = sampleReordered.key 2 := by decide +kernel
  exact ⟨hnested, hreordered, hnestedKey, hreorderedKey, hkey,
    (hseparate _ _ hnested hreordered hnestedKey hreorderedKey).1 hkey⟩

/-! ### Values without a key -/

/-- The least integer with more digits than are printed. -/
def longInteger : Json := .int (Nat.pow 10 Text.digitLimit)

/-- So many arrays around an empty one. -/
def nest : Nat → Json
  | 0 => .arr []
  | n + 1 => .arr [nest n]

theorem regular_nest (n : Nat) : Regular (nest n) := by
  induction n with
  | zero => exact ⟨.arr nofun, rfl⟩
  | succ n ih =>
    exact ⟨.arr (List.forall_mem_singleton.2 ih.finite),
      merged_arr_iff.2 (List.forall_mem_singleton.2 ih.merged)⟩

theorem sorted_nest (n : Nat) : (nest n).sorted = nest n := by
  induction n with
  | zero => rfl
  | succ n ih => rw [nest, sorted_arr, List.map_singleton, ih]

theorem key_nest (n : Nat) : (nest n).key n = .error .tooDeep := by
  have hcheck : checkKey n (nest n) = .error .tooDeep := by
    induction n with
    | zero => rw [nest, checkKey]
    | succ n ih => rw [nest, checkKey, checkElements, ih]; rfl
  rw [key, sorted_nest, hcheck]
  rfl

theorem key_longInteger (levels : Nat) : longInteger.key levels = .error .tooLong := by
  have hlong : Text.digitLimit < (Decimal.ofNat (Nat.pow 10 Text.digitLimit)).length :=
    Decimal.lt_length_ofNat_pow (by decide)
  have hcheck : checkKey levels longInteger = .error .tooLong := by
    rw [longInteger, checkKey, Int.natAbs_natCast, if_pos hlong]
  have hsorted (n : Int) : (int n).sorted = int n := rfl
  rw [key, longInteger, hsorted, ← longInteger, hcheck]
  rfl

theorem Regular.alike (h : Regular v) : Alike v v := (sorted_eq_iff h.merged h.merged).1 rfl

/-- Each of these values is alike itself and has no key, so it has not the key of what it is alike:
an integer of too many digits, and for every stack a value that is nested too deeply. -/
theorem not_separate_longInteger :
    (Regular longInteger ∧ Alike longInteger longInteger ∧
      ∀ levels, longInteger.key levels = .error .tooLong) ∧
    (∀ levels, Regular (nest levels) ∧ Alike (nest levels) (nest levels) ∧
      (nest levels).key levels = .error .tooDeep) ∧
    KeyError.tooLong.message = "Exceeds the limit (4300 digits) for integer string conversion; " ++
      "use sys.set_int_max_str_digits() to increase the limit" ∧
    KeyError.tooDeep.message = "maximum recursion depth exceeded while encoding a JSON object" := by
  have hlong : Regular longInteger := ⟨.int _, rfl⟩
  refine ⟨⟨hlong, hlong.alike, key_longInteger⟩, fun levels => ?_, by decide +kernel, rfl⟩
  exact ⟨regular_nest levels, (regular_nest levels).alike, key_nest levels⟩

end CatalogSearch.Json
