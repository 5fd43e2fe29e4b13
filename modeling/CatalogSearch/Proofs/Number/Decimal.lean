import CatalogSearch.Number.Decimal
import CatalogSearch.Number.Scientific
import CatalogSearch.Proofs.Number.Positional
import CatalogSearch.Proofs.Text.Blank

/-!
# Decimal digits are read back

Decimal digits are read back as the number that they were written for, with or without zeros in
front. How many there are says between which powers of ten the number lies (`length_ofNat_le_iff`).
-/

namespace CatalogSearch

/-- The text does not start with a digit. -/
def NoDigitFirst (s : List Char) : Prop := ∀ c ∈ s.head?, c.isDigit = false

theorem takeWhile_isDigit_append {ds rest : List Char} (hds : ∀ c ∈ ds, c.isDigit = true)
    (hrest : NoDigitFirst rest) : (ds ++ rest).takeWhile Char.isDigit = ds :=
  Text.takeWhile_append_of_first hds hrest

theorem dropWhile_isDigit_append {ds rest : List Char} (hds : ∀ c ∈ ds, c.isDigit = true)
    (hrest : NoDigitFirst rest) : (ds ++ rest).dropWhile Char.isDigit = rest :=
  Text.dropWhile_append_of_first hds hrest

theorem Scientific.readDigits_append {ds rest : List Char} (hne : ds ≠ [])
    (hds : ∀ c ∈ ds, c.isDigit = true) (hrest : NoDigitFirst rest) :
    readDigits (ds ++ rest) = some (ds, rest) := by
  have htake := takeWhile_isDigit_append hds hrest
  rw [readDigits, htake, dropWhile_isDigit_append hds hrest, if_neg (by simpa using hne)]

/-- What is read as digits is one digit or more. -/
theorem Scientific.digits_of_readDigits {s ds rest : List Char}
    (h : readDigits s = some (ds, rest)) : ds ≠ [] ∧ ∀ c ∈ ds, c.isDigit = true := by
  rw [readDigits] at h
  split at h
  · cases h
  · next hne =>
    cases h
    exact ⟨by simpa using hne, List.all_eq_true.1 List.all_takeWhile⟩

namespace Decimal

theorem isDigit_digitChar {d : Nat} (h : d < 10) : (digitChar d).isDigit = true := by
  have hall : ∀ d < 10, (digitChar d).isDigit = true := by decide
  exact hall d h

/-- The value of a digit is below ten. -/
theorem sub_zero_lt {c : Char} (h : c.isDigit = true) : c.toNat - 48 < 10 := by
  simp only [Char.isDigit, Bool.and_eq_true, decide_eq_true_eq, UInt32.le_iff_toNat_le] at h
  have : c.toNat ≤ 57 := h.2
  omega

theorem toNat_digitChar {d : Nat} (h : d < 10) : (digitChar d).toNat - 48 = d := by
  have hall : ∀ d < 10, (digitChar d).toNat - 48 = d := by decide
  exact hall d h

theorem isDigit_of_mem_ofNat {n : Nat} : ∀ c ∈ ofNat n, c.isDigit = true := by
  intro c hc
  obtain ⟨d, hd, rfl⟩ := List.mem_map.1 hc
  exact isDigit_digitChar (Positional.digits_lt (by decide) n d hd)

theorem ofNat_ne_nil (n : Nat) : ofNat n ≠ [] := fun h =>
  Positional.digits_ne_nil 10 n (List.map_eq_nil_iff.1 h)

theorem digitsValue_map_digitChar {ds : List Nat} (h : ∀ d ∈ ds, d < 10) :
    Scientific.digitsValue (ds.map digitChar) = Positional.value 10 ds := by
  rw [Scientific.digitsValue, List.map_map]
  refine congrArg (Positional.value 10) ((List.map_congr_left fun d hd => ?_).trans ds.map_id)
  exact toNat_digitChar (h d hd)

theorem digitsValue_ofNat (n : Nat) : Scientific.digitsValue (ofNat n) = n := by
  rw [ofNat, digitsValue_map_digitChar (Positional.digits_lt (by decide) n),
    Positional.value_digits (by decide)]

theorem toNat?_ofNat (n : Nat) : toNat? (ofNat n) = some n := by
  have hdigits : (ofNat n).all Char.isDigit = true := List.all_eq_true.2 isDigit_of_mem_ofNat
  rw [toNat?, hdigits, List.isEmpty_eq_false_iff.2 (ofNat_ne_nil n)]
  exact congrArg some (digitsValue_ofNat n)

/-- A number does not start with a zero unless it is zero. -/
theorem ofNat_of_head {n : Nat} (h : (ofNat n).head? = some '0') : ofNat n = ['0'] := by
  have hzero : ∀ d < 10, digitChar d = '0' → d = 0 := by decide
  have hdigits : (Positional.digits 10 n).head? = some 0 := by
    obtain ⟨d, hd, hchar⟩ := Option.map_eq_some_iff.1 (List.head?_map ▸ h)
    rw [hd, hzero d (Positional.digits_lt (by decide) n d (List.mem_of_head? hd)) hchar]
  rw [Positional.eq_zero_of_head?_digits (by decide) hdigits, ofNat,
    Positional.digits_of_lt (by decide)]
  rfl

theorem ofInt_inj {m n : Int} (h : ofInt m = ofInt n) : m = n := by
  have hsign (m n : Nat) : ofNat m ≠ '-' :: ofNat n := fun h =>
    absurd (isDigit_of_mem_ofNat '-' (h ▸ List.mem_cons_self)) (by decide)
  have hinj {m n : Nat} (h : ofNat m = ofNat n) : m = n := by
    rw [← digitsValue_ofNat m, h, digitsValue_ofNat]
  match m, n with
  | .ofNat m, .ofNat n => rw [hinj h]
  | .ofNat m, .negSucc n => exact absurd h (hsign m (n + 1))
  | .negSucc m, .ofNat n => exact absurd h.symm (hsign n (m + 1))
  | .negSucc m, .negSucc n => rw [Nat.succ.inj (hinj (List.cons.inj h).2)]

theorem text_inj {m n : Int} (h : text m = text n) : m = n := ofInt_inj (String.ofList_inj.1 h)

/-! ### Zeros in front -/

theorem length_ofNat_le_iff {width n : Nat} (hw : 0 < width) :
    (ofNat n).length ≤ width ↔ n < Nat.pow 10 width := by
  rw [ofNat, List.length_map]
  exact Positional.length_digits_le_iff (by decide) hw

theorem length_ofNat_le {width n : Nat} (h : n < Nat.pow 10 width) (hw : 0 < width) :
    (ofNat n).length ≤ width := (length_ofNat_le_iff hw).2 h

theorem lt_length_ofNat_pow {width : Nat} (hw : 0 < width) :
    width < (ofNat (Nat.pow 10 width)).length :=
  Nat.lt_of_not_le fun hle => Nat.lt_irrefl _ ((length_ofNat_le_iff hw).1 hle)

/-- A number has no more digits than any that it is read from. -/
theorem length_ofNat_value_le {ds : List Nat} (hds : ∀ d ∈ ds, d < 10) (hne : ds ≠ []) :
    (ofNat (Positional.value 10 ds)).length ≤ ds.length :=
  length_ofNat_le (Positional.value_lt hds) (List.length_pos_iff.2 hne)

theorem length_ofNat_digitsValue_le {s : List Char} (hs : ∀ c ∈ s, c.isDigit = true)
    (hne : s ≠ []) : (ofNat (Scientific.digitsValue s)).length ≤ s.length := by
  have hdigits : ∀ d ∈ s.map (·.toNat - 48), d < 10 :=
    List.forall_mem_map.2 fun c hc => sub_zero_lt (hs c hc)
  have hle := length_ofNat_value_le hdigits (mt List.map_eq_nil_iff.1 hne)
  rwa [List.length_map] at hle

theorem length_padded {width n : Nat} (h : n < Nat.pow 10 width) (hw : 0 < width) :
    (padded width n).length = width := by
  have := length_ofNat_le h hw
  rw [padded, List.length_append, List.length_replicate]
  omega

theorem isDigit_of_mem_padded {width n : Nat} : ∀ c ∈ padded width n, c.isDigit = true := by
  intro c hc
  rcases List.mem_append.1 hc with hc | hc
  · rw [List.eq_of_mem_replicate hc]
    decide
  · exact isDigit_of_mem_ofNat c hc

theorem digitsValue_zeros_append (k : Nat) (s : List Char) :
    Scientific.digitsValue (List.replicate k '0' ++ s) = Scientific.digitsValue s := by
  induction k with
  | zero => rfl
  | succ k ih => rw [List.replicate_succ, List.cons_append, ← ih]; rfl

theorem digitsValue_padded (width n : Nat) : Scientific.digitsValue (padded width n) = n := by
  rw [padded, digitsValue_zeros_append, digitsValue_ofNat]

/-! ### Zeros at the end -/

theorem digitsValue_append_zeros (s : List Char) (k : Nat) :
    Scientific.digitsValue (s ++ List.replicate k '0') = Scientific.digitsValue s * 10 ^ k := by
  induction k with
  | zero => rw [List.replicate_zero, List.append_nil, Nat.pow_zero, Nat.mul_one]
  | succ k ih =>
    rw [List.replicate_succ', ← List.append_assoc, Scientific.digitsValue, List.map_append,
      List.map_singleton, Positional.value_concat, ← Scientific.digitsValue, ih, Nat.pow_succ,
      Nat.mul_assoc]
    rfl

end Decimal

end CatalogSearch
