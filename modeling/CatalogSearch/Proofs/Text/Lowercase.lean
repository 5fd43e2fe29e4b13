import CatalogSearch.Text.Lowercase

/-!
# Lower case of ASCII

ASCII characters have no case but that of the letters a to z, so that a text of them is put in lower
case character by character: `lower_of_ascii`.
-/

namespace CatalogSearch.Text

variable {c : Char} {s : List Char}

/-- What holds of every code below 128 holds of every ASCII character. -/
theorem forall_ascii {P : Char → Prop} (h : ∀ n < 128, P (Char.ofNat n)) (hc : c.toNat < 128) :
    P c := by
  rw [← Char.ofNat_toNat c]
  exact h c.toNat hc

theorem toNat_lt_of_isAlphanum (h : c.isAlphanum = true) : c.toNat < 128 := by
  have hupper (h : c.isUpper = true) : c.toNat ≤ 'Z'.toNat := (of_decide_eq_true h).2
  have hlower (h : c.isLower = true) : c.toNat ≤ 'z'.toNat :=
    of_decide_eq_true (Bool.and_eq_true_iff.1 h).2
  have hdigit (h : c.isDigit = true) : c.toNat ≤ '9'.toNat :=
    of_decide_eq_true (Bool.and_eq_true_iff.1 h).2
  rcases Bool.or_eq_true_iff.1 h with hletter | h
  · rcases Bool.or_eq_true_iff.1 hletter with h | h
    · exact Nat.lt_of_le_of_lt (hupper h) (by decide)
    · exact Nat.lt_of_le_of_lt (hlower h) (by decide)
  · exact Nat.lt_of_le_of_lt (hdigit h) (by decide)

theorem lowerChar_of_ascii (hc : c.toNat < 128) : lowerChar c = [c.toLower] :=
  forall_ascii (P := fun c => lowerChar c = [c.toLower]) (by decide +kernel) hc

theorem lowerAfter_of_ascii (hs : ∀ c ∈ s, c.toNat < 128) (before : List Char) :
    lowerAfter before s = s.map Char.toLower := by
  induction s generalizing before with
  | nil => rfl
  | cons c after ih =>
    obtain ⟨hc, hafter⟩ := List.forall_mem_cons.1 hs
    -- the one character whose lower case depends on its neighbours is not among them
    have hsigma : c ≠ 'Σ' := fun h => absurd (h ▸ hc) (by decide)
    have hbetween : lowerBetween before c after = [c.toLower] := by
      rw [lowerBetween, decide_eq_false hsigma, lowerChar_of_ascii hc]
      rfl
    rw [lowerAfter, hbetween, ih hafter, List.map_cons, List.singleton_append]

theorem lower_of_ascii (hs : ∀ c ∈ s, c.toNat < 128) : lower s = s.map Char.toLower :=
  lowerAfter_of_ascii hs []

end CatalogSearch.Text
