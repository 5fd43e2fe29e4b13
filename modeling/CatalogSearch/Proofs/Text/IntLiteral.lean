import CatalogSearch.Proofs.Number.Decimal
import CatalogSearch.Proofs.Text.Blank
import CatalogSearch.Text.IntLiteral

/-!
# The grammar of integer literals

`IntLiteral` is the grammar of integer literals with the integers that they write. The reader of a
text without white space around it follows the grammar as long as the digits are not too many: it
gives the integer of a literal (`readInt_of_intLiteral`) and names what is none
(`readInt_of_not_intLiteral`). Integers in decimal are literals of themselves.
-/

namespace CatalogSearch.Text

/-- A run of digits with their values: a digit, or a digit in front of a run, with or without an
underscore between the two. -/
inductive DigitRun (digit? : Char → Option Nat) : List Char → List Nat → Prop
  | single {c : Char} {d : Nat} : digit? c = some d → DigitRun digit? [c] [d]
  | digit {c : Char} {d : Nat} {s : List Char} {ds : List Nat} :
    digit? c = some d → DigitRun digit? s ds → DigitRun digit? (c :: s) (d :: ds)
  | underscore {c : Char} {d : Nat} {s : List Char} {ds : List Nat} :
    digit? c = some d → DigitRun digit? s ds → DigitRun digit? (c :: '_' :: s) (d :: ds)

/-- A text writes an integer: a run of digits of any script, with or without a sign before it. -/
inductive IntLiteral : List Char → Int → Prop
  | plain {s : List Char} {ds : List Nat} :
    DigitRun digitValue? s ds → IntLiteral s (Positional.value 10 ds)
  | plus {s : List Char} {ds : List Nat} :
    DigitRun digitValue? s ds → IntLiteral ('+' :: s) (Positional.value 10 ds)
  | minus {s : List Char} {ds : List Nat} :
    DigitRun digitValue? s ds → IntLiteral ('-' :: s) (-(Positional.value 10 ds : Int))

/-- How many digits of any script occur in a text. -/
def digitCount (s : List Char) : Nat := s.countP fun c => (digitValue? c).isSome

variable {digit? : Char → Option Nat} {c : Char} {s w : List Char} {ds : List Nat} {m n : Int}

/-! ### Runs of digits -/

theorem DigitRun.first (h : DigitRun digit? s ds) :
    ∃ c rest, s = c :: rest ∧ (digit? c).isSome = true := by
  cases h with
  | single hc | digit hc | underscore hc => exact ⟨_, _, rfl, hc ▸ rfl⟩

theorem digitRun_of_eq_some (h : digitRun digit? s = some ds) : DigitRun digit? s ds := by
  induction s using digitRun.induct generalizing ds with
  | case1 => cases h
  | case2 c =>
    obtain ⟨d, hd, rfl⟩ := Option.map_eq_some_iff.1 h
    exact .single hd
  | case3 c rest ih =>
    rw [digitRun] at h
    obtain ⟨d, hd, h⟩ := Option.bind_eq_some_iff.1 h
    obtain ⟨ds', hds, h⟩ := Option.bind_eq_some_iff.1 h
    cases h
    exact .underscore hd (ih hds)
  | case4 c c' rest hc ih =>
    rw [digitRun.eq_4 _ _ _ _ hc] at h
    obtain ⟨d, hd, h⟩ := Option.bind_eq_some_iff.1 h
    obtain ⟨ds', hds, h⟩ := Option.bind_eq_some_iff.1 h
    cases h
    exact .digit hd (ih hds)

/-- An underscore that is no digit cannot start a run, so that there is one way to read it. -/
theorem DigitRun.eq_some (hunderscore : digit? '_' = none) (h : DigitRun digit? s ds) :
    digitRun digit? s = some ds := by
  induction h with
  | single hd => rw [digitRun, hd, Option.map_some]
  | underscore hd _ ih => rw [digitRun, hd, ih]; rfl
  | digit hd hrun ih =>
    obtain ⟨c, rest, rfl, hc⟩ := hrun.first
    have hne : c = '_' → False := by
      rintro rfl
      rw [hunderscore] at hc
      cases hc
    rw [digitRun.eq_4 _ _ _ _ hne, hd, ih]
    rfl

theorem digitValue?_underscore : digitValue? '_' = none := by decide

theorem digitRun_eq_some_iff : digitRun digitValue? s = some ds ↔ DigitRun digitValue? s ds :=
  ⟨digitRun_of_eq_some, DigitRun.eq_some digitValue?_underscore⟩

theorem DigitRun.length_eq (h : DigitRun digitValue? s ds) : ds.length = digitCount s := by
  have hcons {c : Char} {d : Nat} (hd : digitValue? c = some d) (s : List Char) :
      digitCount (c :: s) = digitCount s + 1 := List.countP_cons_of_pos (hd ▸ rfl)
  have hunderscore (s : List Char) : digitCount ('_' :: s) = digitCount s :=
    List.countP_cons_of_neg (by rw [digitValue?_underscore]; exact Bool.false_ne_true)
  induction h with
  | single hd => rw [hcons hd]; rfl
  | digit hd _ ih => rw [hcons hd, List.length_cons, ih]
  | underscore hd _ ih => rw [hcons hd, hunderscore, List.length_cons, ih]

theorem DigitRun.isRunChar (h : DigitRun digitValue? s ds) : ∀ c ∈ s, isRunChar c = true := by
  have hdigit {c : Char} {d : Nat} (hd : digitValue? c = some d) : Text.isRunChar c = true := by
    rw [Text.isRunChar, hd, Option.isSome_some, Bool.or_true]
  induction h with
  | single hd => exact List.forall_mem_singleton.2 (hdigit hd)
  | digit hd _ ih => exact List.forall_mem_cons.2 ⟨hdigit hd, ih⟩
  | underscore hd _ ih =>
    exact List.forall_mem_cons.2 ⟨hdigit hd, List.forall_mem_cons.2 ⟨rfl, ih⟩⟩

/-! ### Signs -/

theorem digitCount_splitSign_le (w : List Char) : digitCount (splitSign w).2 ≤ digitCount w := by
  unfold splitSign
  split
  · exact (List.sublist_cons_self _ _).countP_le
  · exact (List.sublist_cons_self _ _).countP_le
  · exact Nat.le_refl _

theorem DigitRun.splitSign_eq (h : DigitRun digitValue? s ds) : splitSign s = (false, s) := by
  obtain ⟨c, rest, rfl, hc⟩ := h.first
  unfold splitSign
  split
  · next heq =>
    obtain ⟨rfl, -⟩ := List.cons.inj heq
    exact absurd hc (by decide)
  · next heq =>
    obtain ⟨rfl, -⟩ := List.cons.inj heq
    exact absurd hc (by decide)
  · rfl

theorem intLiteral_iff : IntLiteral w n ↔ ∃ ds, DigitRun digitValue? (splitSign w).2 ds ∧
    n = signed (splitSign w).1 (Positional.value 10 ds) := by
  constructor
  · rintro (h | h | h)
    · rw [h.splitSign_eq]
      exact ⟨_, h, rfl⟩
    · exact ⟨_, h, rfl⟩
    · exact ⟨_, h, rfl⟩
  · rintro ⟨ds, h, rfl⟩
    unfold splitSign at h ⊢
    split at h
    · exact .minus h
    · exact .plus h
    · exact .plain h

theorem IntLiteral.ne_nil (h : IntLiteral w n) : w ≠ [] := by
  rcases h with h | h | h
  · obtain ⟨c, rest, rfl, -⟩ := h.first
    exact List.cons_ne_nil c rest
  · exact List.cons_ne_nil _ _
  · exact List.cons_ne_nil _ _

/-- A text writes one integer at most. -/
theorem IntLiteral.unique (hm : IntLiteral w m) (hn : IntLiteral w n) : m = n := by
  obtain ⟨ds, hds, rfl⟩ := intLiteral_iff.1 hm
  obtain ⟨es, hes, rfl⟩ := intLiteral_iff.1 hn
  have heq := (digitRun_eq_some_iff.2 hds).symm.trans (digitRun_eq_some_iff.2 hes)
  rw [Option.some.inj heq]

/-! ### Reading -/

theorem intLiteral_of_readInt (hw : Trimmed isWhite w) (h : readInt w = .ok n) :
    IntLiteral w n := by
  rw [readInt, stripBy_of_trimmed hw] at h
  simp only at h
  split at h
  · cases h
  · next ds hds =>
    split at h
    · cases h
    · split at h
      · next hrest =>
        cases h
        have hall : (splitSign w).2.takeWhile isRunChar = (splitSign w).2 := by
          rw [← List.append_nil (List.takeWhile _ _), ← List.isEmpty_iff.1 hrest,
            List.takeWhile_append_dropWhile]
        rw [hall] at hds
        exact intLiteral_iff.2 ⟨ds, digitRun_of_eq_some hds, rfl⟩
      · cases h

/-- A run of digits, with or without a sign, is read unless it has too many of them. -/
theorem readInt_of_digitRun (hw : Trimmed isWhite w) (h : DigitRun digitValue? (splitSign w).2 ds) :
    readInt w = if digitLimit < ds.length then .error (.tooLong ds.length)
      else .ok (signed (splitSign w).1 (Positional.value 10 ds)) := by
  have htake : (splitSign w).2.takeWhile isRunChar = (splitSign w).2 :=
    List.takeWhile_eq_self_iff.2 h.isRunChar
  have hdrop : (splitSign w).2.dropWhile isRunChar = [] :=
    List.dropWhile_eq_nil_iff.2 h.isRunChar
  rw [readInt, stripBy_of_trimmed hw]
  simp only [htake, hdrop, digitRun_eq_some_iff.2 h]
  rfl

theorem readInt_of_intLiteral (hw : Trimmed isWhite w) (hcount : digitCount w ≤ digitLimit)
    (h : IntLiteral w n) : readInt w = .ok n := by
  obtain ⟨ds, hds, rfl⟩ := intLiteral_iff.1 h
  have hlen : ds.length ≤ digitLimit :=
    hds.length_eq ▸ Nat.le_trans (digitCount_splitSign_le w) hcount
  rw [readInt_of_digitRun hw hds, if_neg (Nat.not_lt.2 hlen)]

theorem readInt_of_not_intLiteral (hw : Trimmed isWhite w) (hcount : digitCount w ≤ digitLimit)
    (h : ¬∃ n, IntLiteral w n) : readInt w = .error (.malformed (String.ofList w)) := by
  cases hread : readInt w with
  | ok n => exact absurd ⟨n, intLiteral_of_readInt hw hread⟩ h
  | error e =>
    rw [readInt, stripBy_of_trimmed hw] at hread
    simp only at hread
    split at hread
    · exact hread.symm
    · next ds hds =>
      -- what follows the digits is at fault, as they are not too many
      have hlen : ds.length ≤ digitLimit := by
        calc ds.length = digitCount ((splitSign w).2.takeWhile isRunChar) :=
              (digitRun_of_eq_some hds).length_eq
          _ ≤ digitCount (splitSign w).2 := (List.takeWhile_sublist _).countP_le
          _ ≤ digitCount w := digitCount_splitSign_le w
          _ ≤ digitLimit := hcount
      rw [if_neg (Nat.not_lt.2 hlen)] at hread
      split at hread
      · cases hread
      · exact hread.symm

/-! ### Integers in decimal -/

theorem digitRun_map_digitChar (hds : ∀ d ∈ ds, d < 10) (hne : ds ≠ []) :
    DigitRun digitValue? (ds.map Decimal.digitChar) ds := by
  have hdigit : ∀ d < 10, digitValue? (Decimal.digitChar d) = some d := by decide
  induction ds with
  | nil => exact absurd rfl hne
  | cons d rest ih =>
    obtain ⟨hd, hrest⟩ := List.forall_mem_cons.1 hds
    by_cases hnil : rest = []
    · subst hnil
      exact .single (hdigit d hd)
    · exact .digit (hdigit d hd) (ih hrest hnil)

theorem digitRun_ofNat (n : Nat) :
    DigitRun digitValue? (Decimal.ofNat n) (Positional.digits 10 n) :=
  digitRun_map_digitChar (Positional.digits_lt (by decide) n) (Positional.digits_ne_nil 10 n)

theorem intLiteral_ofInt (n : Int) : IntLiteral (Decimal.ofInt n) n := by
  have hvalue (n : Nat) : Positional.value 10 (Positional.digits 10 n) = n :=
    Positional.value_digits (by decide) n
  cases n with
  | ofNat n =>
    have h := IntLiteral.plain (digitRun_ofNat n)
    rwa [hvalue] at h
  | negSucc n =>
    have h := IntLiteral.minus (digitRun_ofNat (n + 1))
    rwa [hvalue] at h

theorem digitCount_ofInt_le {width : Nat} (h : n.natAbs < Nat.pow 10 width) (hw : 0 < width) :
    digitCount (Decimal.ofInt n) ≤ width := by
  have hlen : digitCount (Decimal.ofInt n) ≤ (Decimal.ofNat n.natAbs).length := by
    cases n with
    | ofNat n => exact List.countP_le_length
    | negSucc n =>
      rw [Decimal.ofInt, digitCount, List.countP_cons_of_neg (by decide)]
      exact List.countP_le_length
  exact Nat.le_trans hlen (Decimal.length_ofNat_le h hw)

theorem isBlank_of_isDigit (h : c.isDigit = true) : isBlank c = false := by
  simp only [Char.isDigit, Bool.and_eq_true, decide_eq_true_eq, UInt32.le_iff_toNat_le] at h
  have hmin : 48 ≤ c.toNat := h.1
  have hmax : c.toNat ≤ 57 := h.2
  simp [isBlank, isWhite]
  omega

theorem trimmed_ofNat (n : Nat) : Trimmed isWhite (Decimal.ofNat n) :=
  trimmed_of_forall fun c hc =>
    (Bool.or_eq_false_iff.1 (isBlank_of_isDigit (Decimal.isDigit_of_mem_ofNat c hc))).1

/-- A natural number is read back from its digits unless there are too many. -/
theorem readInt_ofNat (n : Nat) :
    readInt (Decimal.ofNat n) =
      if digitLimit < (Decimal.ofNat n).length then .error (.tooLong (Decimal.ofNat n).length)
      else .ok n := by
  have hrun := digitRun_ofNat n
  have hsign := hrun.splitSign_eq
  have hlen : (Decimal.ofNat n).length = (Positional.digits 10 n).length := List.length_map _
  rw [readInt_of_digitRun (trimmed_ofNat n) (by rwa [hsign]), hsign,
    Positional.value_digits (by decide), hlen]
  rfl

theorem isDigit_of_mem_ofInt {n : Int} (h : c ∈ Decimal.ofInt n) : c = '-' ∨ c.isDigit = true := by
  cases n with
  | ofNat n => exact .inr (Decimal.isDigit_of_mem_ofNat c h)
  | negSucc n => exact (List.mem_cons.1 h).imp_right (Decimal.isDigit_of_mem_ofNat c)

end CatalogSearch.Text
