import CatalogSearch.Number.Base62
import CatalogSearch.Proofs.Number.Positional

/-!
# Public ids and numbers

An id is read as the number that it was written for (`decode_encode`), and a text of digits is the
id of its number but for zeros in front; so different numbers have different ids. The digits are in
the order of their code points, and so are ids of one length in that of their numbers
(`ids_of_numbers`).
-/

namespace CatalogSearch.Base62

variable {c : Char} {d e : Nat} {cs : List Char} {ds es : List Nat}

/-! ### Digits -/

theorem length_alphabet : alphabet.length = 62 := by decide

theorem pairwise_alphabet : alphabet.Pairwise (· < ·) := by decide +kernel

theorem lt_length_alphabet (h : d < 62) : d < alphabet.length := by rwa [length_alphabet]

theorem digit_eq_getElem (h : d < alphabet.length) : digit d = alphabet[d] :=
  (List.getElem_eq_getD _).symm

theorem digit_lt_digit_of_lt (he : e < 62) (h : d < e) : digit d < digit e := by
  have hd := lt_length_alphabet (Nat.lt_trans h he)
  have he := lt_length_alphabet he
  rw [digit_eq_getElem hd, digit_eq_getElem he]
  exact List.pairwise_iff_getElem.1 pairwise_alphabet d e hd he h

theorem digit_lt_digit (hd : d < 62) (he : e < 62) : digit d < digit e ↔ d < e := by
  constructor
  · intro h
    rcases Nat.lt_trichotomy d e with hlt | rfl | hgt
    · exact hlt
    · exact absurd h (Char.lt_irrefl _)
    · exact absurd h (Char.lt_asymm (digit_lt_digit_of_lt hd hgt))
  · exact digit_lt_digit_of_lt he

theorem digit_inj (hd : d < 62) (he : e < 62) : digit d = digit e ↔ d = e := by
  refine ⟨fun h => ?_, congrArg digit⟩
  rcases Nat.lt_trichotomy d e with hlt | rfl | hgt
  · exact absurd (h ▸ digit_lt_digit_of_lt he hlt) (Char.lt_irrefl _)
  · rfl
  · exact absurd (h ▸ digit_lt_digit_of_lt hd hgt) (Char.lt_irrefl _)

theorem digit_eq_zero (hd : d < 62) : digit d = '0' ↔ d = 0 := digit_inj (e := 0) hd (by decide)

theorem digitValue?_digit {d : Nat} (h : d < 62) : digitValue? (digit d) = some d := by
  have hd := lt_length_alphabet h
  refine List.idxOf?_eq_some_iff.2 ⟨hd, (digit_eq_getElem hd).symm, fun j hj heq => ?_⟩
  rw [← digit_eq_getElem, digit_inj (Nat.lt_trans hj h) h] at heq
  exact absurd heq (Nat.ne_of_lt hj)

theorem digitValue?_eq_none : digitValue? c = none ↔ c ∉ alphabet := List.idxOf?_eq_none_iff

theorem map_digit_lt_iff (hds : ∀ d ∈ ds, d < 62) (hes : ∀ e ∈ es, e < 62) :
    ds.map digit < es.map digit ↔ ds < es := by
  induction ds generalizing es with
  | nil => cases es <;> simp
  | cons d ds ih =>
    cases es with
    | nil => simp
    | cons e es =>
      obtain ⟨hd, hds⟩ := List.forall_mem_cons.1 hds
      obtain ⟨he, hes⟩ := List.forall_mem_cons.1 hes
      rw [List.map_cons, List.map_cons, List.cons_lt_cons_iff, List.cons_lt_cons_iff,
        digit_inj hd he, digit_lt_digit hd he, ih hds hes]

/-- The digits of a number are read back as they are. -/
theorem digitValues_map_digit {ds : List Nat} (h : ∀ d ∈ ds, d < 62) :
    digitValues (ds.map digit) = .ok ds := by
  induction ds with
  | nil => rfl
  | cons d rest ih =>
    obtain ⟨hd, hrest⟩ := List.forall_mem_cons.1 h
    rw [List.map_cons, digitValues, digitValue?_digit hd, ih hrest]
    rfl

/-- A text of digits is made of their values. -/
theorem exists_digits (h : ∀ c ∈ cs, c ∈ alphabet) :
    ∃ ds : List Nat, cs = ds.map digit ∧ ∀ d ∈ ds, d < 62 := by
  induction cs with
  | nil => exact ⟨[], rfl, nofun⟩
  | cons c rest ih =>
    obtain ⟨hc, hrest⟩ := List.forall_mem_cons.1 h
    obtain ⟨ds, rfl, hds⟩ := ih hrest
    obtain ⟨d, hd, rfl⟩ := List.mem_iff_getElem.1 hc
    refine ⟨d :: ds, ?_, List.forall_mem_cons.2 ⟨Nat.lt_of_lt_of_eq hd length_alphabet, hds⟩⟩
    rw [List.map_cons, digit_eq_getElem hd]

/-- The first character that is no digit is reported. -/
theorem digitValues_eq_error : digitValues cs = .error c ↔ cs.find? (· ∉ alphabet) = some c := by
  induction cs with
  | nil => exact ⟨nofun, nofun⟩
  | cons c' rest ih =>
    rw [digitValues]
    cases hd : digitValue? c' with
    | none =>
      have hmem := digitValue?_eq_none.1 hd
      rw [List.find?_cons_of_pos (by simpa using hmem)]
      simp
    | some d =>
      have hmem : c' ∈ alphabet := by
        apply Decidable.byContradiction
        intro hmem
        rw [digitValue?_eq_none.2 hmem] at hd
        cases hd
      rw [List.find?_cons_of_neg (by simpa using hmem), ← ih]
      cases digitValues rest with
      | error e => simp [Except.map]
      | ok ds => exact ⟨nofun, nofun⟩

/-! ### Ids -/

/-- The digits of an id. -/
def idDigits (n : Nat) : List Char := (Positional.digits 62 n).map digit

theorem encode_natCast (n : Nat) : encode n = .ok (String.ofList (idDigits n)) := rfl

theorem decode_ofList_map_digit (h : ∀ d ∈ ds, d < 62) (hne : ds ≠ []) :
    decode (String.ofList (ds.map digit)) = .ok (Positional.value 62 ds) := by
  have hempty : ¬ (String.ofList (ds.map digit)).isEmpty = true := by
    rw [String.isEmpty_iff, ← String.toList_eq_nil_iff, String.toList_ofList, List.map_eq_nil_iff]
    exact hne
  rw [decode, if_neg hempty, String.toList_ofList, digitValues_map_digit h]

theorem decode_encode (n : Nat) : decode (String.ofList (idDigits n)) = .ok n := by
  rw [idDigits, decode_ofList_map_digit (Positional.digits_lt (by decide) n)
    (Positional.digits_ne_nil 62 n), Positional.value_digits (by decide)]

theorem encode_inj {m n : Int} {id : String} (hm : encode m = .ok id) (hn : encode n = .ok id) :
    m = n := by
  match m, n with
  | .ofNat m, .ofNat n =>
    have hid := Except.ok.inj (hm.trans hn.symm)
    have hdecode := (decode_encode m).symm.trans ((congrArg decode hid).trans (decode_encode n))
    rw [Except.ok.inj hdecode]
  | .ofNat _, .negSucc _ => cases hn
  | .negSucc _, _ => cases hm

theorem toOption_encode {n : Int} {id : String} :
    (encode n).toOption = some id ↔ encode n = .ok id := by
  cases encode n with
  | error e => exact ⟨nofun, nofun⟩
  | ok id' => exact ⟨fun h => congrArg _ (Option.some.inj h), fun h => congrArg _ (Except.ok.inj h)⟩

/-- The text without the zeros in front, a single zero if nothing is left. -/
def withoutZeros (s : String) : String :=
  match s.toList.dropWhile (· = '0') with
  | [] => "0"
  | cs => String.ofList cs

theorem dropWhile_map_digit (h : ∀ d ∈ ds, d < 62) :
    (ds.map digit).dropWhile (· = '0') = (ds.dropWhile (· = 0)).map digit := by
  induction ds with
  | nil => rfl
  | cons d rest ih =>
    obtain ⟨hd, hrest⟩ := List.forall_mem_cons.1 h
    rw [List.map_cons]
    by_cases hzero : d = 0
    · rw [List.dropWhile_cons_of_pos (by simpa using (digit_eq_zero hd).2 hzero),
        List.dropWhile_cons_of_pos (by simpa using hzero), ih hrest]
    · rw [List.dropWhile_cons_of_neg (by simpa using mt (digit_eq_zero hd).1 hzero),
        List.dropWhile_cons_of_neg (by simpa using hzero), List.map_cons]

/-- The id of a number is any text of digits for it without the zeros in front. -/
theorem encode_value (h : ∀ d ∈ ds, d < 62) :
    encode (Positional.value 62 ds) = .ok (withoutZeros (String.ofList (ds.map digit))) := by
  rw [encode_natCast, idDigits, withoutZeros, String.toList_ofList, dropWhile_map_digit h,
    ← Positional.value_dropWhile_zero]
  cases hds : ds.dropWhile (· = 0) with
  | nil => rw [Positional.value_nil, Positional.digits_of_lt (by decide)]; rfl
  | cons d rest =>
    have hmem : ∀ e ∈ d :: rest, e < 62 := fun e he =>
      h e ((List.dropWhile_sublist _).subset (hds ▸ he))
    have hhead : (d :: rest).head? ≠ some 0 := by
      have hnot := List.head?_dropWhile_not (fun d => decide (d = 0)) ds
      rw [hds] at hnot
      simpa using hnot
    rw [Positional.digits_value (by decide) hmem (List.cons_ne_nil d rest) hhead]
    rfl

theorem exists_decode_error {s : String} :
    (∃ e, decode s = .error e) ↔ s = "" ∨ ∃ c ∈ s.toList, c ∉ alphabet := by
  rw [decode]
  split
  · next hempty => exact iff_of_true ⟨_, rfl⟩ (.inl (String.isEmpty_iff.1 hempty))
  · next hempty =>
    cases hs : digitValues s.toList with
    | error c =>
      have hfind := digitValues_eq_error.1 hs
      have hc : c ∉ alphabet := by simpa using List.find?_some hfind
      exact iff_of_true ⟨_, rfl⟩ (.inr ⟨c, List.mem_of_find?_eq_some hfind, hc⟩)
    | ok ds =>
      refine iff_of_false nofun ?_
      rintro (rfl | ⟨c, hc, hmem⟩)
      · exact hempty rfl
      · have hfind : (s.toList.find? (· ∉ alphabet)).isSome :=
          List.find?_isSome.2 ⟨c, hc, decide_eq_true hmem⟩
        obtain ⟨c', hfind⟩ := Option.isSome_iff_exists.1 hfind
        rw [digitValues_eq_error.2 hfind] at hs
        cases hs

theorem exists_encode_error {n : Int} : (∃ e, encode n = .error e) ↔ n < 0 := by
  cases n with
  | ofNat n => exact iff_of_false nofun (Int.not_lt.2 (Int.natCast_nonneg n))
  | negSucc n => exact iff_of_true ⟨_, rfl⟩ (Int.negSucc_lt_zero n)

/-- Numbers are in the order of their ids, of which a shorter one comes before a longer one. -/
theorem idDigits_lt_iff (m n : Nat) :
    m < n ↔ (String.ofList (idDigits m)).length < (String.ofList (idDigits n)).length ∨
      (String.ofList (idDigits m)).length = (String.ofList (idDigits n)).length ∧
        String.ofList (idDigits m) < String.ofList (idDigits n) := by
  rw [String.lt_iff, String.toList_ofList, String.toList_ofList, String.length_ofList,
    String.length_ofList, idDigits, idDigits, List.length_map, List.length_map,
    map_digit_lt_iff (Positional.digits_lt (by decide) m) (Positional.digits_lt (by decide) n)]
  exact Positional.lt_iff_digits (by decide) m n

/-- Ids and numbers correspond: a number is read back from its id, and a text of digits is the id of
the number that it is read as, but for zeros in front. Only a text that is empty or has another
character is refused, and only a negative number has no id. Numbers are ordered as their ids are, by
their lengths first. -/
theorem ids_of_numbers :
    (∀ n : Nat, ∃ id, encode n = .ok id ∧ decode id = .ok n) ∧
    (∀ s, s ≠ "" → (∀ c ∈ s.toList, c ∈ alphabet) →
      ∃ n : Nat, decode s = .ok n ∧ encode n = .ok (withoutZeros s)) ∧
    (∀ s, (∃ e, decode s = .error e) ↔ s = "" ∨ ∃ c ∈ s.toList, c ∉ alphabet) ∧
    (∀ n, (∃ e, encode n = .error e) ↔ n < 0) ∧
    ∀ m n : Nat, ∃ a b, encode m = .ok a ∧ encode n = .ok b ∧
      (m < n ↔ a.length < b.length ∨ a.length = b.length ∧ a < b) := by
  refine ⟨fun n => ⟨_, encode_natCast n, decode_encode n⟩, fun s hne hs => ?_,
    fun s => exists_decode_error, fun n => exists_encode_error,
    fun m n => ⟨_, _, encode_natCast m, encode_natCast n, idDigits_lt_iff m n⟩⟩
  obtain ⟨ds, hchars, hds⟩ := exists_digits hs
  obtain rfl : String.ofList (ds.map digit) = s := by rw [← hchars, String.ofList_toList]
  have hnil : ds ≠ [] := by
    rintro rfl
    exact hne rfl
  exact ⟨_, decode_ofList_map_digit hds hnil, encode_value hds⟩

theorem ids_of_numbers_padded : "00Z0z" ≠ "" ∧ (∀ c ∈ "00Z0z".toList, c ∈ alphabet) ∧
    withoutZeros "00Z0z" = "Z0z" ∧
    ∃ n : Nat, decode "00Z0z" = .ok n ∧ encode n = .ok (withoutZeros "00Z0z") := by
  have hne : "00Z0z" ≠ "" := by decide
  -- Not decided as it stands: that may go through all characters.
  have hall : "00Z0z".toList.all (· ∈ alphabet) = true := by decide
  have hs : ∀ c ∈ "00Z0z".toList, c ∈ alphabet := fun c hc =>
    of_decide_eq_true (List.all_eq_true.1 hall c hc)
  exact ⟨hne, hs, by decide, ids_of_numbers.2.1 _ hne hs⟩

end CatalogSearch.Base62
