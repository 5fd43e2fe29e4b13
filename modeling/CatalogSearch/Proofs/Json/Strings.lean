import CatalogSearch.Json.Printer
import CatalogSearch.Json.Reader

/-!
# Strings are read back

Strings are read back as they are written, in every style whose way to write a character is read
back: `Style.Readable`, which both styles are.
-/

namespace CatalogSearch.Json

open Text

theorem hexValue?_hexDigit {d : Nat} (h : d < 16) : hexValue? (hexDigit d) = some d := by
  have hall : ∀ d < 16, hexValue? (hexDigit d) = some d := by decide
  exact hall d h

theorem codeUnit?_hexDigit {n : Nat} (h : n < 0x10000) :
    codeUnit? (hexDigit (n / 16 / 16 / 16 % 16)) (hexDigit (n / 16 / 16 % 16))
      (hexDigit (n / 16 % 16)) (hexDigit (n % 16)) = some n := by
  have hlt (d : Nat) : d % 16 < 16 := Nat.mod_lt _ (by decide)
  simp only [codeUnit?, hexValue?_hexDigit (hlt _), Option.bind_eq_bind, Option.bind_some]
  exact congrArg some (by omega)

/-- A code unit that is half of no pair stands for its character, whatever follows it. -/
theorem readString_unit {a b c d : Char} {n : Nat} (h : codeUnit? a b c d = some n)
    (hhigh : isHighSurrogate n = false) (hlow : isLowSurrogate n = false) (rest : List Char) :
    readString ('\\' :: 'u' :: a :: b :: c :: d :: rest) =
      (readString rest).map fun r => (Char.ofNat n :: r.1, r.2) := by
  by_cases hrest : ∃ e f g h rest', rest = '\\' :: 'u' :: e :: f :: g :: h :: rest'
  · obtain ⟨e, f, g, h', rest', rfl⟩ := hrest
    rw [readString, h]
    simp only [hhigh, hlow, Option.bind_eq_bind, Option.bind_some, Bool.false_eq_true, if_false]
    cases readString ('\\' :: 'u' :: e :: f :: g :: h' :: rest') <;> rfl
  · rw [readString, h]
    · simp only [hhigh, hlow, Option.bind_eq_bind, Option.bind_some, Bool.or_self,
        Bool.false_eq_true, if_false]
      cases readString rest <;> rfl
    · exact fun e f g h rest' hr => hrest ⟨e, f, g, h, rest', hr⟩

/-- Two code units that are the halves of a pair stand for one character. -/
theorem readString_pair {a b c d e f g h : Char} {m n : Nat} (hm : codeUnit? a b c d = some m)
    (hn : codeUnit? e f g h = some n) (hhigh : isHighSurrogate m = true)
    (hlow : isLowSurrogate n = true) (rest : List Char) :
    readString ('\\' :: 'u' :: a :: b :: c :: d :: '\\' :: 'u' :: e :: f :: g :: h :: rest) =
      (readString rest).map fun r =>
        (Char.ofNat (0x10000 + (m - 0xD800) * 0x400 + (n - 0xDC00)) :: r.1, r.2) := by
  rw [readString, hm]
  simp only [hhigh, hn, hlow, Option.bind_eq_bind, Option.bind_some, if_true]
  cases readString rest <;> rfl

theorem readString_short {c e : Char} (h : shortEscape? c = some e) (hu : c ≠ 'u')
    (rest : List Char) :
    readString ('\\' :: c :: rest) = (readString rest).map fun r => (e :: r.1, r.2) := by
  rw [readString, h]
  · simp only [Option.bind_eq_bind, Option.bind_some]
    cases readString rest <;> rfl
  · exact fun _ _ _ _ _ _ _ _ _ hc => absurd hc hu
  · exact fun _ _ _ _ _ hc => absurd hc hu

theorem readString_plain {c : Char} (hquote : c ≠ '"') (hslash : c ≠ '\\')
    (hc : ¬ c.toNat < 0x20) (rest : List Char) :
    readString (c :: rest) = (readString rest).map fun r => (c :: r.1, r.2) := by
  rw [readString, if_neg hc]
  · exact hquote
  · exact fun _ _ _ _ _ _ _ _ _ h => absurd h hslash
  · exact fun _ _ _ _ _ h => absurd h hslash
  · exact fun _ _ h => absurd h hslash

/-- A character of one code unit is half of no pair, so that its code unit stands for it. -/
theorem readString_unitEscape {c : Char} (h : c.toNat < 0x10000) (rest : List Char) :
    readString (unitEscape c.toNat ++ rest) = (readString rest).map fun r => (c :: r.1, r.2) := by
  have hvalid : c.toNat < 0xD800 ∨ 0xDFFF < c.toNat ∧ c.toNat < 0x110000 := c.valid
  have hhigh : isHighSurrogate c.toNat = false := by
    simp only [isHighSurrogate, Bool.and_eq_false_iff, decide_eq_false_iff_not]
    omega
  have hlow : isLowSurrogate c.toNat = false := by
    simp only [isLowSurrogate, Bool.and_eq_false_iff, decide_eq_false_iff_not]
    omega
  have hread := readString_unit (codeUnit?_hexDigit h) hhigh hlow rest
  rw [Char.ofNat_toNat] at hread
  exact hread

/-- A character that is escaped where it has to be is read back. -/
theorem readString_escapedChar (c : Char) (rest : List Char) :
    readString (escapedChar c ++ rest) = (readString rest).map fun r => (c :: r.1, r.2) := by
  rw [escapedChar, escape?]
  split
  · next h => subst h; exact readString_short rfl (by decide) rest
  split
  · next h => subst h; exact readString_short rfl (by decide) rest
  split
  · next h => subst h; exact readString_short rfl (by decide) rest
  split
  · next h => subst h; exact readString_short rfl (by decide) rest
  split
  · next h => subst h; exact readString_short rfl (by decide) rest
  split
  · next h =>
    have hc : c = Char.ofNat 8 := by rw [← h, Char.ofNat_toNat]
    exact hc ▸ readString_short rfl (by decide) rest
  split
  · next h =>
    have hc : c = Char.ofNat 12 := by rw [← h, Char.ofNat_toNat]
    exact hc ▸ readString_short rfl (by decide) rest
  split
  · next h => exact readString_unitEscape (by omega) rest
  · next hquote hslash _ _ _ _ _ hc => exact readString_plain hquote hslash hc rest

/-- A character is read back from printable ASCII, whether it is one code unit or two. -/
theorem readString_escapedAscii (c : Char) (rest : List Char) :
    readString (escapedAscii c ++ rest) = (readString rest).map fun r => (c :: r.1, r.2) := by
  have hplain := readString_escapedChar c rest
  rw [escapedChar] at hplain
  rw [escapedAscii]
  cases hescape : escape? c with
  | some e =>
    rw [hescape] at hplain
    exact hplain
  | none =>
    rw [hescape] at hplain
    rw [Option.getD_none]
    split
    · exact hplain
    split
    · next hunit => exact readString_unitEscape hunit rest
    · next hpair =>
      have hvalid : c.toNat < 0xD800 ∨ 0xDFFF < c.toNat ∧ c.toNat < 0x110000 := c.valid
      have hhigh : isHighSurrogate (0xD800 + (c.toNat - 0x10000) / 0x400) = true := by
        simp only [isHighSurrogate, Bool.and_eq_true, decide_eq_true_eq]
        omega
      have hlow : isLowSurrogate (0xDC00 + (c.toNat - 0x10000) % 0x400) = true := by
        simp only [isLowSurrogate, Bool.and_eq_true, decide_eq_true_eq]
        omega
      have hread := readString_pair (codeUnit?_hexDigit (by omega)) (codeUnit?_hexDigit (by omega))
        hhigh hlow rest
      have hchar : 0x10000 + (0xD800 + (c.toNat - 0x10000) / 0x400 - 0xD800) * 0x400 +
          (0xDC00 + (c.toNat - 0x10000) % 0x400 - 0xDC00) = c.toNat := by omega
      rw [hchar, Char.ofNat_toNat] at hread
      exact hread

/-- A style whose gaps and strings are read back. -/
structure Style.Readable (st : Style) : Prop where
  gap : ∀ c ∈ st.gap, isGap c = true
  escaped : ∀ c rest,
    readString (st.escaped c ++ rest) = (readString rest).map fun r => (c :: r.1, r.2)

theorem readable_compact : Style.compact.Readable := ⟨nofun, readString_escapedChar⟩

theorem readable_spaced : Style.spaced.Readable :=
  ⟨List.forall_mem_singleton.2 rfl, readString_escapedAscii⟩

theorem readString_chars {st : Style} (hst : st.Readable) (cs rest : List Char) :
    readString (cs.flatMap st.escaped ++ '"' :: rest) = some (cs, rest) := by
  induction cs with
  | nil => exact readString.eq_2 rest
  | cons c cs ih =>
    rw [List.flatMap_cons, List.append_assoc, hst.escaped, ih]
    rfl

end CatalogSearch.Json
