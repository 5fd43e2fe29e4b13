import CatalogSearch.Proofs.Data.Sorting
import CatalogSearch.Proofs.Document.Faults
import CatalogSearch.Proofs.Text.IntLiteral
import CatalogSearch.Proofs.Text.Split
import CatalogSearch.Worker.Schedule

/-!
# Schedule settings

What is read of a schedule setting depends on its words: what is left of the pieces between the
commas without the blanks around them. If each word is an integer literal, the set of the integers
is read, and else the first word that is none is named (`reads_readSet`). The set does not depend on
the order of the words or on how often they stand there, and every set of integers is read from its
elements in decimal (`readSet_exact`).
-/

namespace CatalogSearch.Schedule

open Text

variable {s : String} {pieces ps qs words words' : List (List Char)} {piece w : List Char}
  {l l' : List Int} {P Q : Int → Prop} {e : IntLiteralError}

/-! ### Words -/

/-- The words of pieces: what is left of them without the blanks around it, if anything is. -/
inductive Words : List (List Char) → List (List Char) → Prop
  | nil : Words [] []
  | blank {piece : List Char} {pieces words : List (List Char)} :
    Strips isBlank piece [] → Words pieces words → Words (piece :: pieces) words
  | word {piece w : List Char} {pieces words : List (List Char)} :
    Strips isBlank piece w → w ≠ [] → Words pieces words → Words (piece :: pieces) (w :: words)

/-- The words between the commas of a text. -/
def Lists (s : String) (words : List (List Char)) : Prop :=
  ∃ pieces, Pieces ',' s.toList pieces ∧ Words pieces words

/-- A piece has this word in it. -/
def HasWord (pieces : List (List Char)) (w : List Char) : Prop :=
  w ≠ [] ∧ ∃ piece ∈ pieces, Strips isBlank piece w

theorem exists_words (pieces : List (List Char)) : ∃ words, Words pieces words := by
  induction pieces with
  | nil => exact ⟨[], .nil⟩
  | cons piece rest ih =>
    obtain ⟨words, hwords⟩ := ih
    have hpiece := strips_stripBy isBlank piece
    by_cases hnil : stripBy isBlank piece = []
    · exact ⟨words, .blank (hnil ▸ hpiece) hwords⟩
    · exact ⟨_, .word hpiece hnil hwords⟩

theorem words_unique (h : Words pieces words) (h' : Words pieces words') : words = words' := by
  induction h generalizing words' with
  | nil => cases h'; rfl
  | blank hpiece _ ih =>
    cases h' with
    | blank _ hrest => exact ih hrest
    | word hw hne _ => exact absurd ((strips_iff.1 hw).trans (strips_iff.1 hpiece).symm) hne
  | word hw hne _ ih =>
    cases h' with
    | blank hpiece _ => exact absurd ((strips_iff.1 hw).trans (strips_iff.1 hpiece).symm) hne
    | word hw' _ hrest => rw [ih hrest, strips_iff.1 hw, strips_iff.1 hw']

theorem Words.mem_iff (h : Words pieces words) : w ∈ words ↔ HasWord pieces w := by
  induction h with
  | nil => exact iff_of_false List.not_mem_nil fun h => by simpa using h.2
  | blank hpiece _ ih =>
    rw [ih, HasWord, HasWord, List.exists_mem_cons_iff]
    refine and_congr_right fun hne => (or_iff_right fun hw => hne ?_).symm
    rw [strips_iff.1 hw, strips_iff.1 hpiece]
  | word hw hne _ ih =>
    rw [List.mem_cons, ih, HasWord, HasWord, List.exists_mem_cons_iff, and_or_left]
    refine or_congr_left ⟨?_, fun h => (strips_iff.1 h.2).trans (strips_iff.1 hw).symm⟩
    rintro rfl
    exact ⟨hne, hw⟩

theorem Words.trimmed (h : Words pieces words) (hw : w ∈ words) : Trimmed isWhite w := by
  obtain ⟨-, piece, -, hpiece⟩ := h.mem_iff.1 hw
  rw [strips_iff.1 hpiece]
  exact (trimmed_stripBy isBlank piece).mono fun c hc => (Bool.or_eq_false_iff.1 hc).1

theorem readPieces_of_words (h : Words pieces words) : readPieces pieces = words.mapM readInt := by
  induction h with
  | nil => rfl
  | blank hpiece _ ih =>
    rw [readPieces, strip, ← strips_iff.1 hpiece, ← ih]
    rfl
  | word hw hne _ ih =>
    rw [readPieces, strip, ← strips_iff.1 hw, List.mapM_cons, ← ih]
    exact if_neg (by simpa using hne)

theorem readSet_of_lists (h : Lists s words) :
    readSet s = (words.mapM readInt).map fun l => sortBy intLe (distinct l) := by
  obtain ⟨pieces, hpieces, hwords⟩ := h
  rw [readSet, ← pieces_iff.1 hpieces, readPieces_of_words hwords]

theorem lists_iff (h : Lists s words) : Lists s words' ↔ words' = words := by
  constructor
  · rintro ⟨ps, hps, hwords'⟩
    obtain ⟨qs, hqs, hwords⟩ := h
    rw [pieces_iff] at hps hqs
    subst hps hqs
    exact words_unique hwords' hwords
  · rintro rfl
    exact h

/-! ### Sets of integers -/

/-- The integers with a property, each once and in increasing order. -/
structure Enumerates (l : List Int) (P : Int → Prop) : Prop where
  increasing : l.Pairwise (· < ·)
  mem_iff : ∀ n, n ∈ l ↔ P n

theorem enumerates_sortBy_distinct (l : List Int) :
    Enumerates (sortBy intLe (distinct l)) (· ∈ l) where
  increasing := by
    have hle := pairwise_sortBy TotalPreorder.intLe (distinct l)
    have hne : (sortBy intLe (distinct l)).Nodup :=
      (sortBy_perm intLe (distinct l)).nodup_iff.2 (nodup_distinct l)
    exact (hle.and hne).imp fun h => by
      have := of_decide_eq_true h.1
      omega
  mem_iff := fun n => (mem_sortBy intLe n _).trans (mem_distinct n l)

theorem Enumerates.congr (h : Enumerates l P) (hpq : ∀ n, P n ↔ Q n) : Enumerates l Q :=
  ⟨h.increasing, fun n => (h.mem_iff n).trans (hpq n)⟩

theorem Enumerates.unique (h : Enumerates l P) (h' : Enumerates l' P) : l = l' := by
  have hnodup {l : List Int} (h : Enumerates l P) : l.Nodup := h.increasing.imp Int.ne_of_lt
  have hperm : l.Perm l' := (List.perm_ext_iff_of_nodup (hnodup h) (hnodup h')).2 fun n =>
    (h.mem_iff n).trans (h'.mem_iff n).symm
  exact hperm.eq_of_pairwise (fun a b _ _ hab hba => absurd hab (Int.lt_asymm hba))
    h.increasing h'.increasing

/-- A set is read just if every word is, and it is that of what they are read as. -/
theorem readSet_eq_ok_iff (h : Lists s words) : readSet s = .ok l ↔
    (∀ w ∈ words, ∃ n, readInt w = .ok n) ∧
      Enumerates l fun n => ∃ w ∈ words, readInt w = .ok n := by
  rw [readSet_of_lists h]
  cases hns : words.mapM readInt with
  | error e =>
    obtain ⟨l₁, w, l₂, rfl, hw, -⟩ := mapM_eq_error.1 hns
    refine iff_of_false nofun fun hall => ?_
    obtain ⟨n, hn⟩ := hall.1 w (List.mem_append_right l₁ List.mem_cons_self)
    rw [hw] at hn
    cases hn
  | ok ns =>
    -- the words are read one by one as `ns`, so that the set of `ns` is the one to compare `l` with
    have hmap : words.map readInt = ns.map .ok := by
      rw [← List.forall₂_eq_eq_eq, List.forall₂_map_left_iff, List.forall₂_map_right_iff]
      exact mapM_eq_ok.1 hns
    have hmem (n : Int) : n ∈ ns ↔ ∃ w ∈ words, readInt w = .ok n := by
      rw [← List.mem_map, hmap, List.mem_map_of_injective fun _ _ => Except.ok.inj]
    have hset := (enumerates_sortBy_distinct ns).congr hmem
    constructor
    · intro hl
      cases hl
      refine ⟨fun w hw => ?_, hset⟩
      obtain ⟨n, -, hn⟩ := List.mem_map.1 (hmap ▸ List.mem_map_of_mem hw)
      exact ⟨n, hn.symm⟩
    · rintro ⟨-, hl⟩
      exact congrArg Except.ok (hset.unique hl)

theorem readSet_eq_error_iff (h : Lists s words) : readSet s = .error e ↔
    ∃ l₁ w l₂, words = l₁ ++ w :: l₂ ∧ readInt w = .error e ∧ ∀ v ∈ l₁, ∃ n, readInt v = .ok n := by
  rw [readSet_of_lists h, ← mapM_eq_error]
  cases words.mapM readInt <;> simp [Except.map]

/-! ### Integer literals -/

/-- What is read of words: the set of the integers that they write, or an error that names the first
of them that writes none. -/
structure Reads (words : List (List Char)) (result : Except IntLiteralError (List Int)) : Prop where
  ok_iff : ∀ l, result = .ok l ↔
    (∀ w ∈ words, ∃ n, IntLiteral w n) ∧ Enumerates l fun n => ∃ w ∈ words, IntLiteral w n
  error_iff : ∀ e, result = .error e ↔ ∃ l₁ w l₂, words = l₁ ++ w :: l₂ ∧
    (∀ v ∈ l₁, ∃ n, IntLiteral v n) ∧ (¬∃ n, IntLiteral w n) ∧ e = .malformed (String.ofList w)

theorem Words.readInt_eq_ok_iff {n : Int} (h : Words pieces words) (hw : w ∈ words)
    (hcount : digitCount w ≤ digitLimit) : readInt w = .ok n ↔ IntLiteral w n :=
  ⟨intLiteral_of_readInt (h.trimmed hw), readInt_of_intLiteral (h.trimmed hw) hcount⟩

theorem Words.readInt_eq_error_iff (h : Words pieces words) (hw : w ∈ words)
    (hcount : digitCount w ≤ digitLimit) :
    readInt w = .error e ↔ (¬∃ n, IntLiteral w n) ∧ e = .malformed (String.ofList w) := by
  constructor
  · intro he
    have hnot : ¬∃ n, IntLiteral w n := by
      rintro ⟨n, hn⟩
      rw [(h.readInt_eq_ok_iff hw hcount).2 hn] at he
      cases he
    rw [readInt_of_not_intLiteral (h.trimmed hw) hcount hnot] at he
    exact ⟨hnot, (Except.error.inj he).symm⟩
  · rintro ⟨hnot, rfl⟩
    exact readInt_of_not_intLiteral (h.trimmed hw) hcount hnot

theorem reads_readSet (h : Lists s words) (hcount : ∀ w ∈ words, digitCount w ≤ digitLimit) :
    Reads words (readSet s) where
  ok_iff l := by
    have ⟨_, _, hwords⟩ := h
    have hok (w) (hw : w ∈ words) (n) := hwords.readInt_eq_ok_iff (n := n) hw (hcount w hw)
    have hall : (∀ w ∈ words, ∃ n, readInt w = .ok n) ↔ ∀ w ∈ words, ∃ n, IntLiteral w n :=
      forall₂_congr fun w hw => exists_congr (hok w hw)
    have hset (n : Int) : (∃ w ∈ words, readInt w = .ok n) ↔ ∃ w ∈ words, IntLiteral w n :=
      exists_congr fun w => and_congr_right fun hw => hok w hw n
    rw [readSet_eq_ok_iff h, hall]
    refine and_congr_right fun _ => ⟨fun hl => hl.congr hset, fun hl => ?_⟩
    exact hl.congr fun n => (hset n).symm
  error_iff e := by
    have ⟨_, _, hwords⟩ := h
    rw [readSet_eq_error_iff h]
    refine exists_congr fun l₁ => exists_congr fun w => exists_congr fun l₂ => ?_
    refine and_congr_right fun hsplit => ?_
    have hw : w ∈ words := hsplit ▸ List.mem_append_right l₁ List.mem_cons_self
    have hok (v) (hv : v ∈ l₁) (n) : readInt v = .ok n ↔ IntLiteral v n :=
      have hv : v ∈ words := hsplit ▸ List.mem_append_left (w :: l₂) hv
      hwords.readInt_eq_ok_iff hv (hcount v hv)
    have hall : (∀ v ∈ l₁, ∃ n, readInt v = .ok n) ↔ ∀ v ∈ l₁, ∃ n, IntLiteral v n :=
      forall₂_congr fun v hv => exists_congr (hok v hv)
    rw [hwords.readInt_eq_error_iff hw (hcount w hw), hall, and_comm]

/-! ### The same words put differently -/

/-- The text with these pieces between its commas. -/
def joined (pieces : List (List Char)) : String := String.ofList ([','].intercalate pieces)

/-- The same pieces put differently: in another order, repeated, with blanks around them or with
blank pieces among them. -/
inductive Restyled : List (List Char) → List (List Char) → Prop
  | perm {ps qs : List (List Char)} : ps.Perm qs → Restyled ps qs
  | again {piece : List Char} {ps : List (List Char)} : piece ∈ ps → Restyled ps (piece :: ps)
  | padded {a b : List Char} (piece : List Char) (ps : List (List Char)) :
    (∀ c ∈ a, isBlank c = true) → (∀ c ∈ b, isBlank c = true) →
    Restyled (piece :: ps) ((a ++ piece ++ b) :: ps)
  | blank {piece : List Char} (ps : List (List Char)) :
    (∀ c ∈ piece, isBlank c = true) → Restyled ps (piece :: ps)
  | symm {ps qs : List (List Char)} : Restyled ps qs → Restyled qs ps
  | trans {ps qs rs : List (List Char)} : Restyled ps qs → Restyled qs rs → Restyled ps rs

theorem Restyled.hasWord_iff (h : Restyled ps qs) (w : List Char) :
    HasWord ps w ↔ HasWord qs w := by
  induction h with
  | perm h => simp only [HasWord, h.mem_iff]
  | again hmem =>
    rw [HasWord, HasWord, List.exists_mem_cons_iff]
    exact and_congr_right fun _ => (or_iff_right_of_imp fun hw => ⟨_, hmem, hw⟩).symm
  | padded piece ps ha hb =>
    simp only [HasWord, List.exists_mem_cons_iff, strips_iff, stripBy_padded ha hb]
  | blank ps hblank =>
    rw [HasWord, HasWord, List.exists_mem_cons_iff, strips_iff, stripBy_eq_nil_iff.2 hblank]
    exact and_congr_right fun hne => (or_iff_right hne).symm
  | symm _ ih => exact ih.symm
  | trans _ _ ih ih' => exact ih.trans ih'

/-- Blanks are no commas. -/
theorem Restyled.apart_iff (h : Restyled ps qs) :
    (∀ piece ∈ ps, ',' ∉ piece) ↔ ∀ piece ∈ qs, ',' ∉ piece := by
  have hblank {s : List Char} (h : ∀ c ∈ s, isBlank c = true) : ',' ∉ s := fun hc =>
    absurd (h ',' hc) (by decide)
  induction h with
  | perm h => simp only [h.mem_iff]
  | again hmem =>
    rw [List.forall_mem_cons]
    exact (and_iff_right_of_imp fun h => h _ hmem).symm
  | padded piece ps ha hb => simp [hblank ha, hblank hb]
  | blank ps h => simp [hblank h]
  | symm _ ih => exact ih.symm
  | trans _ _ ih ih' => exact ih.trans ih'

theorem pieces_joined (hne : pieces ≠ []) (hapart : ∀ piece ∈ pieces, ',' ∉ piece) :
    Pieces ',' (joined pieces).toList pieces := ⟨hne, String.toList_ofList.symm, hapart⟩

/-- Of texts with the same words in them the same integers are read, if any are. -/
theorem toOption_readSet_of_hasWord_iff {t : String} (hs : Pieces ',' s.toList ps)
    (ht : Pieces ',' t.toList qs) (h : ∀ w, HasWord ps w ↔ HasWord qs w) :
    (readSet t).toOption = (readSet s).toOption := by
  obtain ⟨words, hps⟩ := exists_words ps
  obtain ⟨words', hqs⟩ := exists_words qs
  have hmem (w : List Char) : w ∈ words' ↔ w ∈ words := by rw [hqs.mem_iff, hps.mem_iff, h]
  have hsame (l : List Int) : readSet t = .ok l ↔ readSet s = .ok l := by
    rw [readSet_eq_ok_iff ⟨ps, hs, hps⟩, readSet_eq_ok_iff ⟨qs, ht, hqs⟩]
    simp only [hmem]
  have hsome (x : Except IntLiteralError (List Int)) (l : List Int) :
      x.toOption = some l ↔ x = .ok l := by cases x <;> simp [Except.toOption]
  exact Option.ext fun l => by rw [hsome, hsome, hsame]

/-! ### Sets in decimal -/

theorem words_self (h : ∀ w ∈ words, w ≠ [] ∧ Trimmed isBlank w) : Words words words := by
  induction words with
  | nil => exact .nil
  | cons w rest ih =>
    obtain ⟨⟨hne, hw⟩, hrest⟩ := List.forall_mem_cons.1 h
    exact .word (strips_iff.2 (stripBy_of_trimmed hw).symm) hne (ih hrest)

/-- Integers in decimal are the words of the text that they are joined to. No integer at all makes
one blank piece. -/
theorem lists_joined_ofInt (l : List Int) :
    Lists (joined (l.map Decimal.ofInt)) (l.map Decimal.ofInt) := by
  by_cases hnil : l = []
  · subst hnil
    exact ⟨[[]], ⟨by simp, rfl, by simp⟩, .blank (strips_stripBy isBlank []) .nil⟩
  · refine ⟨_, pieces_joined (mt List.map_eq_nil_iff.1 hnil) ?_, words_self ?_⟩
    · refine List.forall_mem_map.2 fun n _ hcomma => ?_
      exact (isDigit_of_mem_ofInt hcomma).elim (by decide) (by decide)
    · refine List.forall_mem_map.2 fun n _ => ⟨(intLiteral_ofInt n).ne_nil, ?_⟩
      refine trimmed_of_forall fun c hc => ?_
      rcases isDigit_of_mem_ofInt hc with rfl | hc
      · decide
      · exact isBlank_of_isDigit hc

theorem readSet_joined_ofInt (hl : ∀ n ∈ l, n.natAbs < Nat.pow 10 digitLimit) :
    ∃ r, readSet (joined (l.map Decimal.ofInt)) = .ok r ∧ Enumerates r (· ∈ l) := by
  have hcount : ∀ w ∈ l.map Decimal.ofInt, digitCount w ≤ digitLimit :=
    List.forall_mem_map.2 fun n hn => digitCount_ofInt_le (hl n hn) (by decide)
  have hreads := reads_readSet (lists_joined_ofInt l) hcount
  have hset := enumerates_sortBy_distinct l
  refine ⟨_, (hreads.ok_iff _).2 ⟨?_, hset.congr fun n => ?_⟩, hset⟩
  · exact List.forall_mem_map.2 fun n _ => ⟨n, intLiteral_ofInt n⟩
  · constructor
    · intro hn
      exact ⟨_, List.mem_map_of_mem hn, intLiteral_ofInt n⟩
    · rintro ⟨w, hw, hlit⟩
      obtain ⟨m, hm, rfl⟩ := List.mem_map.1 hw
      rwa [hlit.unique (intLiteral_ofInt m)]

/-- A schedule setting is read as exactly the integers between its commas. Each text has its words,
and texts with the same ones are read alike; pieces in another order or repeated change nothing in
what is read either, if anything is; and integers in decimal, joined in any order, are read as the
set of them. -/
theorem readSet_exact :
    (∀ s, ∃ words, (∀ words', Lists s words' ↔ words' = words) ∧
      (∀ t, Lists t words → readSet t = readSet s) ∧
      ((∀ w ∈ words, digitCount w ≤ digitLimit) → Reads words (readSet s))) ∧
    (∀ s ps qs, Pieces ',' s.toList ps → Restyled ps qs → qs ≠ [] →
      (readSet (joined qs)).toOption = (readSet s).toOption) ∧
    ∀ l : List Int, (∀ n ∈ l, n.natAbs < Nat.pow 10 digitLimit) →
      ∃ r, readSet (joined (l.map Decimal.ofInt)) = .ok r ∧ Enumerates r (· ∈ l) := by
  refine ⟨fun s => ?_, fun s ps qs hs h hne => ?_, fun l => readSet_joined_ofInt⟩
  · obtain ⟨words, hwords⟩ := exists_words (splitOn ',' s.toList)
    have hlists : Lists s words := ⟨_, pieces_splitOn ',' s.toList, hwords⟩
    refine ⟨words, fun _ => lists_iff hlists, fun t ht => ?_, reads_readSet hlists⟩
    rw [readSet_of_lists ht, readSet_of_lists hlists]
  · have ht := pieces_joined hne (h.apart_iff.1 hs.apart)
    exact toOption_readSet_of_hasWord_iff hs ht h.hasWord_iff

theorem readSet_exact_sample :
    Reads [['1', '2'], ['0']] (readSet "12, 0,") ∧
    (readSet (joined [[' ', '0'], ['0'], ['1', '2']])).toOption = (readSet "12,0").toOption ∧
    ∃ r, readSet (joined ([7, -12].map Decimal.ofInt)) = .ok r ∧ Enumerates r (· ∈ [7, -12]) := by
  refine ⟨?_, ?_, ?_⟩
  · obtain ⟨words, hlists, -, hreads⟩ := readSet_exact.1 "12, 0,"
    have hpieces : Pieces ',' "12, 0,".toList [['1', '2'], [' ', '0'], []] :=
      ⟨by decide, by decide, by decide⟩
    have hwords : Words [['1', '2'], [' ', '0'], []] [['1', '2'], ['0']] :=
      .word (strips_iff.2 (by decide)) (by decide) (.word (strips_iff.2 (by decide)) (by decide)
        (.blank (strips_iff.2 (by decide)) .nil))
    obtain rfl := (hlists _).1 ⟨_, hpieces, hwords⟩
    exact hreads (by decide)
  · refine readSet_exact.2.1 "12,0" [['1', '2'], ['0']] _ ⟨by decide, by decide, by decide⟩ ?_
      (by decide)
    have hagain : Restyled [['0'], ['1', '2']] [['0'], ['0'], ['1', '2']] := .again (by decide)
    have hpadded : Restyled [['0'], ['0'], ['1', '2']] [[' ', '0'], ['0'], ['1', '2']] :=
      .padded (a := [' ']) (b := []) _ _ (List.forall_mem_singleton.2 rfl) nofun
    exact (Restyled.perm (.swap _ _ _)).trans (hagain.trans hpadded)
  · refine readSet_exact.2.2 [7, -12] fun n hn => ?_
    have hsmall : ∀ n ∈ [(7 : Int), -12], n.natAbs < Nat.pow 10 2 := by decide
    have hlarge {width : Nat} (h : 2 ≤ width) : Nat.pow 10 2 ≤ Nat.pow 10 width :=
      Nat.pow_le_pow_right (by decide) h
    exact Nat.lt_of_lt_of_le (hsmall n hn) (hlarge (by decide))

example : readSet "12, 0,,+12" = .ok [0, 12] := by decide

example : readSet "12,1O,x" = .error (.malformed "1O") := by decide

end CatalogSearch.Schedule
