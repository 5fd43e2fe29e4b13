import CatalogSearch.Proofs.Json.ReadBack
import CatalogSearch.Proofs.Number.Shortest

/-!
# Floating-point numbers are read back

Finite floating-point numbers are read back as they are written, in every style (`floatReadBack`).
-/

namespace CatalogSearch.Json

open Text Numeral

variable {l : Limits} {st : Style} {rest : List Char} {n : Numeral}

theorem readExponent_text (hrest : Follows rest) (e? : Option Int) :
    Scientific.readExponent (exponentText e? ++ rest) = some (e?, rest) := by
  cases e? with
  | none => exact readExponent_of_follows hrest
  | some e =>
    have hne : Decimal.padded 2 e.natAbs ≠ [] :=
      List.append_ne_nil_of_right_ne_nil _ (Decimal.ofNat_ne_nil _)
    have hdigits := Scientific.readDigits_append hne Decimal.isDigit_of_mem_padded
      (noDigitFirst_of_follows hrest)
    rw [exponentText, List.cons_append, List.cons_append, Scientific.readExponent,
      if_pos (.inl rfl)]
    by_cases he : e < 0
    · have hsigned : signed true e.natAbs = e := by
        rw [signed, if_pos rfl]
        omega
      simp only [if_pos he, splitSign, hdigits, Option.map_some, Decimal.digitsValue_padded,
        hsigned]
    · have hsigned : signed false e.natAbs = e := by
        rw [signed, if_neg Bool.false_ne_true]
        omega
      simp only [if_neg he, splitSign, hdigits, Option.map_some, Decimal.digitsValue_padded,
        hsigned]

theorem noDigitFirst_exponentText (hrest : Follows rest) (e? : Option Int) :
    NoDigitFirst (exponentText e? ++ rest) := by
  cases e? with
  | none => exact noDigitFirst_of_follows hrest
  | some e =>
    intro c hc
    cases hc
    decide

theorem head?_exponentText (hrest : Follows rest) (e? : Option Int) :
    (exponentText e? ++ rest).head? ≠ some '.' := by
  cases e? with
  | none => exact head?_of_follows hrest
  | some e => exact nofun

/-- The numeral of a floating-point number is read as the number that it denotes. -/
theorem readUnsigned_text (hn : n.IsFloat) (hl : l.takesNumber false n.whole.length = true)
    (hrest : Follows rest) (negative : Bool) :
    readUnsigned l negative (n.text ++ rest) = some (.float (n.number negative), rest) := by
  obtain ⟨whole, places, exponent⟩ := n
  have hzero : ¬ (whole.head? = some '0' ∧ 1 < whole.length) := fun h => by
    have hlength : whole.length = 1 := hn.noZeroFirst h.1
    omega
  have hexponent := readExponent_text hrest exponent
  have hends := noDigitFirst_exponentText hrest exponent
  by_cases hplaces : places = []
  · subst hplaces
    obtain ⟨e, rfl⟩ := Option.isSome_iff_exists.1 (hn.marked.resolve_left fun h => h rfl)
    have hwhole := Scientific.readDigits_append hn.whole_ne_nil hn.isDigit_whole hends
    have htext : Numeral.text ⟨whole, [], some e⟩ ++ rest =
        whole ++ (exponentText (some e) ++ rest) := List.append_assoc ..
    rw [htext, readUnsigned, hwhole]
    simp only [Option.bind_eq_bind, Option.bind_some, if_neg hzero,
      readFraction_of_no_point (head?_exponentText hrest (some e)), hexponent, Option.isNone_none,
      Option.isNone_some, Bool.and_false, hl, Bool.not_true, Bool.false_eq_true, if_false]
    rfl
  · have hpoint : NoDigitFirst ('.' :: (places ++ (exponentText exponent ++ rest))) := by
      intro c hc
      cases hc
      decide
    have hwhole := Scientific.readDigits_append hn.whole_ne_nil hn.isDigit_whole hpoint
    have hfraction := Scientific.readDigits_append hplaces hn.isDigit_places hends
    have htext : Numeral.text ⟨whole, places, exponent⟩ ++ rest =
        whole ++ '.' :: (places ++ (exponentText exponent ++ rest)) := by
      simp [Numeral.text, hplaces]
    rw [htext, readUnsigned, hwhole]
    simp only [Option.bind_eq_bind, Option.bind_some, if_neg hzero, readFraction, hfraction,
      Option.map_some, hexponent, Option.isNone_some, Bool.false_and, hl, Bool.not_true,
      Bool.false_eq_true, if_false]
    rfl

theorem text_first (hn : n.IsFloat) : ∃ c cs, n.text = c :: cs ∧ c.isDigit = true := by
  obtain ⟨c, cs, hcs⟩ := List.exists_cons_of_ne_nil hn.whole_ne_nil
  refine ⟨c, cs ++ ((if n.places.isEmpty then [] else '.' :: n.places) ++
    exponentText n.exponent), ?_, hn.isDigit_whole c (hcs ▸ List.mem_cons_self)⟩
  rw [Numeral.text, hcs, List.cons_append]

/-- A finite number is read back within limits that take sixteen digits before the point. -/
theorem floatReadBack (hl : ∀ digits ≤ 16, l.takesNumber false digits = true) (st : Style)
    {x : Binary64} (hx : x.isFinite = true) : FloatReadBack l st x := by
  have hwrite : writeFloat st x = x.text := if_pos hx
  obtain ⟨n, hn, htext, hnumber⟩ := Binary64.exists_numeral hx
  obtain ⟨c, cs, hcs, hc⟩ := text_first hn
  have hread {rest : List Char} (hrest : Follows rest) :=
    readUnsigned_text hn (hl _ hn.length_whole) hrest x.negative
  rw [hnumber] at hread
  cases hsign : x.negative with
  | false =>
    rw [hsign, if_neg Bool.false_ne_true, hcs] at htext
    refine ⟨⟨c, cs, hwrite.trans htext, isGap_of_isDigit hc, ?_⟩, ?_⟩
    · rintro rfl
      exact absurd hc (by decide)
    · intro fuel depth gap rest hgap hrest
      have hrest' := hread hrest
      rw [hcs, hsign, List.cons_append] at hrest'
      rw [hwrite, htext, List.cons_append, readValue_number (.inl hc) fuel depth hgap,
        readNumber_digit hc, hrest']
  | true =>
    rw [hsign, if_pos rfl, hcs] at htext
    refine ⟨⟨'-', c :: cs, hwrite.trans htext, by decide, by decide⟩, ?_⟩
    intro fuel depth gap rest hgap hrest
    have hrest' := hread hrest
    rw [hcs, hsign, List.cons_append] at hrest'
    rw [hwrite, htext, List.cons_append, List.cons_append,
      readValue_number (.inr rfl) fuel depth hgap, readNumber_minus hc, hrest']

theorem takesNumber_narrow {digits : Nat} (h : digits ≤ 16) :
    Limits.narrow.takesNumber false digits = true :=
  decide_eq_true (Nat.le_trans h (by decide))

/-- All floating-point numbers of the value are finite. -/
def Finite (v : Json) : Prop := AllFloats (fun x => x.isFinite = true) v

/-- The text of a value with finite numbers is read back if the value is within the limits of
records. -/
theorem readWithin?_narrow {v : Json} (hv : v.Finite) (hfits : fits .narrow Limits.narrow.depth v) :
    readWithin? .narrow v.print = some v := by
  rw [readWithin?_print (hv.imp fun _ => floatReadBack (fun _ => takesNumber_narrow) _),
    if_pos hfits]

end CatalogSearch.Json
