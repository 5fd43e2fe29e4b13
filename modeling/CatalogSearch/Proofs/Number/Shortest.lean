import CatalogSearch.Number.Shortest
import CatalogSearch.Number.Scientific
import CatalogSearch.Proofs.Number.Binary64

/-!
# The text of a number denotes it

What is chosen as the shortest decimal of a finite number reads back, and so does the exact one that
stands in if no short one does (`ofDecimal_shortest`); the text of the number is a numeral of the
same decimal (`exists_numeral`).
-/

namespace CatalogSearch

namespace Binary64

variable {x : Binary64} {negative : Bool}

/-! ### The shortest decimal -/

theorem eq_of_position {y : Binary64} (hnegative : x.negative = y.negative)
    (hposition : x.position = y.position) : x = y := by
  cases x
  cases y
  cases hnegative
  cases hposition
  rfl

theorem ofDecimal_zero (negative : Bool) (e : Int) :
    ofDecimal negative 0 e = ofPosition negative 0 := if_pos rfl

/-- The sign has no part in rounding. -/
theorem ofDecimal_of_readsBack {d : Nat} {e : Int} (h : readsBack x.position d e = true) :
    ofDecimal x.negative d e = x := by
  have hposition := beq_iff_eq.1 h
  rw [ofDecimal_eq_ofRatio] at hposition ⊢
  exact eq_of_position rfl hposition

theorem readsBack_of_shortestOf {count d : Nat} {e : Int} (h : shortestOf x count = some (d, e)) :
    readsBack x.position d e = true := by
  rw [shortestOf] at h
  split at h
  · split at h <;> cases h <;> assumption
  · cases h
    assumption
  · cases h
    assumption
  · cases h

theorem ofDecimal_exactDecimal (negative : Bool) :
    ofDecimal negative x.exactDecimal.1 x.exactDecimal.2 = ofRatio negative x.num x.den := by
  refine ofDecimal_of_eq x.den_pos ?_ negative
  have hexponent : min 0 (exponent x.position) = -((-exponent x.position).toNat : Int) := by omega
  have hten : (10 : ℚ) ^ (-exponent x.position).toNat =
      2 ^ (-exponent x.position).toNat * 5 ^ (-exponent x.position).toNat := by
    rw [← mul_pow]
    norm_num
  simp only [exactDecimal, den, Nat.pow_eq, Nat.cast_mul, Nat.cast_pow, Nat.cast_ofNat, hexponent,
    zpow_neg, zpow_natCast, hten]
  field_simp

theorem ofDecimal_shortest (hx : x.isFinite = true) :
    ofDecimal x.negative x.shortest.1 x.shortest.2 = x := by
  rw [shortest]
  split
  · next hzero =>
    rw [ofDecimal_zero]
    refine eq_of_position rfl ?_
    rw [beq_iff_eq.1 hzero]
    rfl
  · cases hfind : (List.range 17).findSome? fun i => shortestOf x (i + 1) with
    | none =>
      rw [Option.getD_none, ofDecimal_exactDecimal]
      exact ofRatio_self hx
    | some r =>
      obtain ⟨i, -, hi⟩ := List.exists_of_findSome?_eq_some hfind
      rw [Option.getD_some]
      exact ofDecimal_of_readsBack (readsBack_of_shortestOf hi)

theorem ofDecimal_mul_pow (negative : Bool) (n k : Nat) (e : Int) :
    ofDecimal negative (n * 10 ^ k) e = ofDecimal negative n (e + k) := by
  refine ofDecimal_congr ?_ negative
  rw [zpow_add₀ (by norm_num), zpow_natCast]
  push_cast
  ring

end Binary64

/-! ### Numerals -/

/-- Digits before and after a point, and an exponent. -/
structure Numeral where
  whole : List Char
  places : List Char
  exponent : Option Int

namespace Numeral

/-- The text of an exponent. -/
def exponentText : Option Int → List Char
  | none => []
  | some e => 'e' :: (if e < 0 then '-' else '+') :: Decimal.padded 2 e.natAbs

/-- The text of the numeral, without the point if no digit follows it. -/
def text (n : Numeral) : List Char :=
  n.whole ++ ((if n.places.isEmpty then [] else '.' :: n.places) ++ exponentText n.exponent)

/-- The number that the numeral denotes with a sign, rounded. -/
def number (negative : Bool) (n : Numeral) : Binary64 :=
  Scientific.rounded negative n.whole n.places (n.exponent.getD 0)

/-- The numeral is one of a floating-point number, without a zero in front of other digits, and has
at most sixteen digits before the point. -/
structure IsFloat (n : Numeral) : Prop where
  whole_ne_nil : n.whole ≠ []
  isDigit_whole : ∀ c ∈ n.whole, c.isDigit = true
  isDigit_places : ∀ c ∈ n.places, c.isDigit = true
  noZeroFirst : n.whole.head? = some '0' → n.whole.length = 1
  length_whole : n.whole.length ≤ 16
  marked : n.places ≠ [] ∨ n.exponent.isSome = true

end Numeral

namespace Binary64

variable {x : Binary64} {ds : List Char} {point : Int} {negative : Bool}

/-- Digits of a number that is not zero, without a zero at the start. -/
structure Significant (ds : List Char) : Prop where
  ne_nil : ds ≠ []
  isDigit : ∀ c ∈ ds, c.isDigit = true
  noZeroFirst : ds.head? ≠ some '0'

/-- The text is a numeral of the digits with the point after so many of them. -/
def Denotes (negative : Bool) (ds : List Char) (point : Int) (s : List Char) : Prop :=
  ∃ n : Numeral, n.IsFloat ∧ n.text = s ∧
    n.number negative = ofDecimal negative (Scientific.digitsValue ds) (point - ds.length)

theorem isDigit_zeros (k : Nat) : ∀ c ∈ List.replicate k '0', c.isDigit = true := by
  intro c hc
  rw [List.eq_of_mem_replicate hc]
  decide

/-- All digits are places. -/
theorem denotes_places (hds : Significant ds) (hpoint : point ≤ 0) :
    Denotes negative ds point ('0' :: '.' :: (List.replicate (-point).toNat '0' ++ ds)) := by
  have hne : List.replicate (-point).toNat '0' ++ ds ≠ [] :=
    List.append_ne_nil_of_right_ne_nil _ hds.ne_nil
  refine ⟨⟨['0'], List.replicate (-point).toNat '0' ++ ds, none⟩, ⟨nofun, isDigit_zeros 1, ?_,
    fun _ => rfl, Nat.le_of_ble_eq_true rfl, .inl hne⟩, ?_, ?_⟩
  · exact List.forall_mem_append.2 ⟨isDigit_zeros _, hds.isDigit⟩
  · simp [Numeral.text, Numeral.exponentText, hds.ne_nil]
  · rw [Numeral.number, Scientific.rounded, List.singleton_append, ← List.cons_append,
      ← List.replicate_succ, Decimal.digitsValue_zeros_append]
    congr 1
    simp only [Option.getD_none, List.length_append, List.length_replicate]
    omega

/-- Some digits stand before the point and some after it. -/
theorem denotes_split {n : Nat} (hds : Significant ds) (hpos : 0 < n) (hlt : n < ds.length)
    (hn : n ≤ 16) : Denotes negative ds n (ds.take n ++ '.' :: ds.drop n) := by
  have hdrop : ds.drop n ≠ [] := by
    rw [Ne, List.drop_eq_nil_iff]
    omega
  have htake : ds.take n ≠ [] := by
    rw [Ne, List.take_eq_nil_iff]
    exact not_or.2 ⟨by omega, hds.ne_nil⟩
  refine ⟨⟨ds.take n, ds.drop n, none⟩, ⟨htake, fun c hc => hds.isDigit c (List.mem_of_mem_take hc),
    fun c hc => hds.isDigit c (List.mem_of_mem_drop hc), fun h => ?_,
    (List.length_take_le n ds).trans hn, .inl hdrop⟩, ?_, ?_⟩
  · rw [List.head?_take, if_neg (by omega)] at h
    exact absurd h hds.noZeroFirst
  · simp [Numeral.text, Numeral.exponentText, Nat.not_le.2 hlt]
  · rw [Numeral.number, Scientific.rounded]
    simp only [List.take_append_drop, Option.getD_none, List.length_drop]
    congr 1
    omega

/-- All digits and zeros after them stand before the point. -/
theorem denotes_whole {k : Nat} (hds : Significant ds) (hk : ds.length + k ≤ 16) :
    Denotes negative ds (ds.length + k : Nat) (ds ++ List.replicate k '0' ++ ['.', '0']) := by
  refine ⟨⟨ds ++ List.replicate k '0', ['0'], none⟩,
    ⟨List.append_ne_nil_of_left_ne_nil hds.ne_nil _,
      List.forall_mem_append.2 ⟨hds.isDigit, isDigit_zeros k⟩, isDigit_zeros 1, fun h => ?_,
      by simpa using hk, .inl nofun⟩, rfl, ?_⟩
  · rw [List.head?_append_of_ne_nil _ hds.ne_nil] at h
    exact absurd h hds.noZeroFirst
  · have hzeros : ds ++ List.replicate k '0' ++ ['0'] = ds ++ List.replicate (k + 1) '0' := by
      rw [List.replicate_succ', List.append_assoc]
    rw [Numeral.number, Scientific.rounded, hzeros, Decimal.digitsValue_append_zeros,
      ofDecimal_mul_pow]
    congr 1
    simp only [Option.getD_none, List.length_singleton]
    omega

theorem denotes_positional (hds : Significant ds) (hpoint : point ≤ 16) :
    Denotes negative ds point (positional ds point) := by
  rw [positional]
  split
  · next hle => exact denotes_places hds hle
  next hpos =>
  obtain ⟨n, rfl⟩ : ∃ n : Nat, point = n := ⟨point.toNat, by omega⟩
  rw [Int.toNat_natCast]
  by_cases hlt : n < ds.length
  · have hsplit : Denotes negative ds n _ := denotes_split hds (by omega) hlt (by omega)
    simpa [Nat.sub_eq_zero_of_le hlt.le, Nat.not_le.2 hlt] using hsplit
  · have hwhole : Denotes negative ds (ds.length + (n - ds.length) : Nat) _ :=
      denotes_whole hds (by omega)
    rw [Nat.add_sub_cancel' (Nat.not_lt.1 hlt)] at hwhole
    simpa [List.take_of_length_le (Nat.not_lt.1 hlt), List.drop_of_length_le (Nat.not_lt.1 hlt)]
      using hwhole

theorem denotes_scientific (hds : Significant ds) :
    Denotes negative ds point (scientific ds point) := by
  obtain ⟨d, rest, rfl⟩ := List.exists_cons_of_ne_nil hds.ne_nil
  obtain ⟨hd, hrest⟩ := List.forall_mem_cons.1 hds.isDigit
  refine ⟨⟨[d], rest, some (point - 1)⟩, ⟨nofun, fun c hc => ?_, hrest, fun _ => rfl,
    Nat.le_of_ble_eq_true rfl, .inr rfl⟩, ?_, ?_⟩
  · rw [List.mem_singleton.1 hc]
    exact hd
  · cases rest <;> simp [Numeral.text, Numeral.exponentText, scientific]
  · rw [Numeral.number, Scientific.rounded]
    congr 1
    simp only [Option.getD_some, List.length_cons]
    omega

/-! ### The text -/

theorem exists_zeros (ds : List Char) : ∃ k, trimZeros ds ++ List.replicate k '0' = ds := by
  have hzeros : ∀ c ∈ ds.reverse.takeWhile (· = '0'), c = '0' := fun c hc =>
    of_decide_eq_true (List.all_eq_true.1 List.all_takeWhile c hc)
  refine ⟨(ds.reverse.takeWhile (· = '0')).length, ?_⟩
  have hreverse := congrArg List.reverse
    (List.takeWhile_append_dropWhile (p := (· = '0')) (l := ds.reverse))
  rw [List.reverse_append, List.reverse_reverse, List.eq_replicate_length.2 hzeros,
    List.reverse_replicate] at hreverse
  exact hreverse

theorem significant_trimZeros {d : Nat} (hd : d ≠ 0) :
    Significant (trimZeros (Decimal.ofNat d)) := by
  obtain ⟨k, hk⟩ := exists_zeros (Decimal.ofNat d)
  have hvalue := Decimal.digitsValue_ofNat d
  have hne : trimZeros (Decimal.ofNat d) ≠ [] := by
    intro hnil
    have hzeros := Decimal.digitsValue_zeros_append k []
    rw [hnil, List.nil_append] at hk
    rw [List.append_nil, hk, hvalue] at hzeros
    exact hd hzeros
  refine ⟨hne, fun c hc => ?_, fun h => ?_⟩
  · exact Decimal.isDigit_of_mem_ofNat c (hk ▸ List.mem_append_left _ hc)
  · have hhead : (Decimal.ofNat d).head? = some '0' := by
      rw [← hk, List.head?_append_of_ne_nil _ hne, h]
    rw [Decimal.ofNat_of_head hhead] at hvalue
    exact hd hvalue.symm

theorem isFloat_zero : Numeral.IsFloat ⟨['0'], ['0'], none⟩ :=
  ⟨nofun, isDigit_zeros 1, isDigit_zeros 1, fun _ => rfl, Nat.le_of_ble_eq_true rfl, .inl nofun⟩

/-- The text of a finite number is a numeral of it behind its sign. -/
theorem exists_numeral (hx : x.isFinite = true) : ∃ n : Numeral, n.IsFloat ∧
    x.text = (if x.negative then '-' :: n.text else n.text) ∧ n.number x.negative = x := by
  have hnumber := ofDecimal_shortest hx
  rw [text]
  rcases hshortest : x.shortest with ⟨d, e⟩
  rw [hshortest] at hnumber
  by_cases hd : d = 0
  · subst hd
    exact ⟨_, isFloat_zero, rfl, hnumber⟩
  · obtain ⟨k, hk⟩ := exists_zeros (Decimal.ofNat d)
    have hds := significant_trimZeros hd
    have hvalue : Scientific.digitsValue (trimZeros (Decimal.ofNat d)) * 10 ^ k = d := by
      rw [← Decimal.digitsValue_append_zeros, hk, Decimal.digitsValue_ofNat]
    have hlength : (trimZeros (Decimal.ofNat d)).length + k = (Decimal.ofNat d).length := by
      rw [← congrArg List.length hk, List.length_append, List.length_replicate]
    have hsame : ofDecimal x.negative (Scientific.digitsValue (trimZeros (Decimal.ofNat d)))
        ((Decimal.ofNat d).length + e - (trimZeros (Decimal.ofNat d)).length) = x := by
      rw [show ((Decimal.ofNat d).length : Int) + e - (trimZeros (Decimal.ofNat d)).length = e + k
        by omega, ← ofDecimal_mul_pow, hvalue, hnumber]
    have hdenotes : Denotes x.negative (trimZeros (Decimal.ofNat d))
        ((Decimal.ofNat d).length + e)
        (if -4 < ((Decimal.ofNat d).length : Int) + e ∧ ((Decimal.ofNat d).length : Int) + e ≤ 16
          then positional (trimZeros (Decimal.ofNat d)) ((Decimal.ofNat d).length + e)
          else scientific (trimZeros (Decimal.ofNat d)) ((Decimal.ofNat d).length + e)) := by
      split
      · next h => exact denotes_positional hds h.2
      · exact denotes_scientific hds
    obtain ⟨n, hn, htext, hn'⟩ := hdenotes
    refine ⟨n, hn, ?_, hn'.trans hsame⟩
    simp only [if_neg hd, htext]

end Binary64

end CatalogSearch
