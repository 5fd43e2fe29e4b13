import CatalogSearch.Proofs.Json.Strings
import CatalogSearch.Proofs.Number.Decimal

/-!
# Values are read back

Values are read back as they are written (`readWithin?_print`). Within its limits the reader gives
the value that was written and leaves what follows it; what exceeds the limits it refuses. Of
floating-point numbers it is assumed that each is read back alone.
-/

namespace CatalogSearch.Json

open Text

variable {l : Limits} {st : Style}

/-- What holds of every value if it holds of a value whenever it holds of those inside it. -/
@[elab_as_elim]
theorem induction {motive : Json → Prop} (null : motive .null) (bool : ∀ b, motive (.bool b))
    (int : ∀ n, motive (.int n)) (float : ∀ x, motive (.float x)) (str : ∀ s, motive (.str s))
    (arr : ∀ vs, (∀ v ∈ vs, motive v) → motive (.arr vs))
    (obj : ∀ ms, (∀ m ∈ ms, motive m.2) → motive (.obj ms)) (v : Json) : motive v :=
  @Json.rec motive (fun vs => ∀ v ∈ vs, motive v) (fun ms => ∀ m ∈ ms, motive m.2)
    (fun m => motive m.2) null bool int float str (fun vs => arr vs) (fun ms => obj ms) nofun
    (fun _ _ hv hvs => List.forall_mem_cons.2 ⟨hv, hvs⟩) nofun
    (fun _ _ hm hms => List.forall_mem_cons.2 ⟨hm, hms⟩) (fun _ _ h => h) v

mutual

/-- Whether a value is within limits, with so much depth left. -/
def fits (l : Limits) : Nat → Json → Bool
  | _, .int n => l.takesNumber true (Decimal.ofNat n.natAbs).length
  | _, .arr [] => true
  | 0, .arr (_ :: _) => false
  | depth + 1, .arr (v :: vs) => fits l depth v && fitsElements l depth vs
  | _, .obj [] => true
  | 0, .obj (_ :: _) => false
  | depth + 1, .obj ((_, v) :: ms) => fits l depth v && fitsMembers l depth ms
  | _, .null | _, .bool _ | _, .float _ | _, .str _ => true

/-- Whether all elements are within limits. -/
def fitsElements (l : Limits) : Nat → List Json → Bool
  | _, [] => true
  | depth, v :: vs => fits l depth v && fitsElements l depth vs

/-- Whether the values of all members are within limits. -/
def fitsMembers (l : Limits) : Nat → List (String × Json) → Bool
  | _, [] => true
  | depth, (_, v) :: ms => fits l depth v && fitsMembers l depth ms

end

/-- All floating-point numbers of a value satisfy `p`. -/
inductive AllFloats (p : Binary64 → Prop) : Json → Prop where
  | null : AllFloats p .null
  | bool (b : Bool) : AllFloats p (.bool b)
  | int (n : Int) : AllFloats p (.int n)
  | float {x : Binary64} : p x → AllFloats p (.float x)
  | str (s : String) : AllFloats p (.str s)
  | arr {vs : List Json} : (∀ v ∈ vs, AllFloats p v) → AllFloats p (.arr vs)
  | obj {ms : List (String × Json)} : (∀ m ∈ ms, AllFloats p m.2) → AllFloats p (.obj ms)

theorem AllFloats.imp {p q : Binary64 → Prop} (hpq : ∀ x, p x → q x) {v : Json}
    (h : AllFloats p v) : AllFloats q v := by
  induction v using induction with
  | null => exact .null
  | bool b => exact .bool b
  | int n => exact .int n
  | float x => cases h with | float hx => exact .float (hpq x hx)
  | str s => exact .str s
  | arr vs ih => cases h with | arr hvs => exact .arr fun v hv => ih v hv (hvs v hv)
  | obj ms ih => cases h with | obj hms => exact .obj fun m hm => ih m hm (hms m hm)

/-- What may follow a value inside another one, or at the end. -/
def Follows (s : List Char) : Prop := ∀ c ∈ s.head?, c = ',' ∨ c = ']' ∨ c = '}'

/-- A floating-point number is read back. -/
structure FloatReadBack (l : Limits) (st : Style) (x : Binary64) : Prop where
  first : ∃ c cs, writeFloat st x = c :: cs ∧ isGap c = false ∧ c ≠ ']'
  readValue : ∀ fuel depth gap rest, (∀ c ∈ gap, isGap c = true) → Follows rest →
    readValue l (fuel + 1) depth (gap ++ (writeFloat st x ++ rest)) = some (.float x, rest)

/-! ### Gaps and lengths -/

theorem skipGap_append {gap : List Char} (h : ∀ c ∈ gap, isGap c = true) (s : List Char) :
    skipGap (gap ++ s) = skipGap s := List.dropWhile_append_of_pos h

theorem skipGap_cons {c : Char} (h : isGap c = false) (s : List Char) : skipGap (c :: s) = c :: s :=
  List.dropWhile_cons_of_neg (by rw [h]; exact Bool.false_ne_true)

theorem isGap_of_isDigit {c : Char} (h : c.isDigit = true) : isGap c = false := by
  rw [isGap]
  simp only [Bool.or_eq_false_iff, decide_eq_false_iff_not]
  refine ⟨⟨⟨?_, ?_⟩, ?_⟩, ?_⟩ <;> rintro rfl <;> exact absurd h (by decide)

theorem length_writeString (st : Style) (s : String) (rest : List Char) :
    rest.length < (writeString st s rest).length := by
  simp only [writeString, List.length_cons, List.length_append]
  omega

theorem length_ofInt_pos (n : Int) : 0 < (Decimal.ofInt n).length := by
  cases n with
  | ofNat n => exact List.length_pos_iff.2 (Decimal.ofNat_ne_nil n)
  | negSucc n => exact Nat.succ_pos _

theorem length_writeElements {vs : List Json}
    (h : ∀ v ∈ vs, ∀ rest, rest.length < (write st v rest).length) (rest : List Char) :
    rest.length ≤ (writeElements st vs rest).length := by
  induction vs with
  | nil => exact Nat.le_of_eq (by rw [writeElements])
  | cons v vs ih =>
    obtain ⟨hv, hvs⟩ := List.forall_mem_cons.1 h
    have := ih hvs
    have := hv (writeElements st vs rest)
    simp only [writeElements, List.length_cons, List.length_append]
    omega

theorem length_writeMembers {ms : List (String × Json)}
    (h : ∀ m ∈ ms, ∀ rest, rest.length < (write st m.2 rest).length) (rest : List Char) :
    rest.length ≤ (writeMembers st ms rest).length := by
  induction ms with
  | nil => exact Nat.le_of_eq (by rw [writeMembers])
  | cons m ms ih =>
    obtain ⟨hm, hms⟩ := List.forall_mem_cons.1 h
    have := ih hms
    have := hm (writeMembers st ms rest)
    have := length_writeString st m.1
      (':' :: (st.gap ++ write st m.2 (writeMembers st ms rest)))
    simp only [writeMembers, List.length_cons, List.length_append] at *
    omega

/-- Every value takes at least one character. -/
theorem length_write {v : Json} (hv : AllFloats (FloatReadBack l st) v) (rest : List Char) :
    rest.length < (write st v rest).length := by
  induction v using induction generalizing rest with
  | null =>
    rw [write, List.length_append]
    exact Nat.lt_add_of_pos_left (by decide)
  | bool b =>
    cases b <;>
    · rw [write, List.length_append]
      exact Nat.lt_add_of_pos_left (by decide)
  | int n =>
    have := length_ofInt_pos n
    rw [write, List.length_append]
    omega
  | float x =>
    cases hv with
    | float hx =>
      obtain ⟨c, cs, hcs, -⟩ := hx.first
      rw [write, hcs, List.length_append, List.length_cons]
      omega
  | str s => exact length_writeString st s rest
  | arr vs ih =>
    cases hv with
    | arr hvs =>
      cases vs with
      | nil => simp only [write, List.length_cons]; omega
      | cons v vs =>
        have h (w : Json) (hw : w ∈ v :: vs) (rest : List Char) := ih w hw (hvs w hw) rest
        have := h v List.mem_cons_self (writeElements st vs (']' :: rest))
        have := length_writeElements (fun w hw => h w (List.mem_cons_of_mem _ hw)) (']' :: rest)
        simp only [write, List.length_cons] at *
        omega
  | obj ms ih =>
    cases hv with
    | obj hms =>
      cases ms with
      | nil => simp only [write, List.length_cons]; omega
      | cons m ms =>
        have h (m' : String × Json) (hm : m' ∈ m :: ms) (rest : List Char) :=
          ih m' hm (hms m' hm) rest
        have := h m List.mem_cons_self (writeMembers st ms ('}' :: rest))
        have := length_writeMembers (fun m' hm => h m' (List.mem_cons_of_mem _ hm)) ('}' :: rest)
        have := length_writeString st m.1
          (':' :: (st.gap ++ write st m.2 (writeMembers st ms ('}' :: rest))))
        simp only [write, List.length_cons, List.length_append] at *
        omega

/-! ### Numbers -/

theorem noDigitFirst_of_follows {s : List Char} (h : Follows s) : NoDigitFirst s := by
  intro c hc
  rcases h c hc with rfl | rfl | rfl <;> decide

theorem readFraction_of_no_point {s : List Char} (h : s.head? ≠ some '.') :
    readFraction s = some (none, s) := by
  rw [readFraction.eq_def]
  split
  · exact absurd rfl h
  · rfl

theorem head?_of_follows {s : List Char} (h : Follows s) : s.head? ≠ some '.' := by
  intro hpoint
  rcases h '.' hpoint with h | h | h <;> exact absurd h (by decide)

theorem readExponent_of_follows {rest : List Char} (hrest : Follows rest) :
    Scientific.readExponent rest = some (none, rest) := by
  cases rest with
  | nil => rfl
  | cons c rest =>
    rw [Scientific.readExponent, if_neg]
    rintro (rfl | rfl) <;> rcases hrest _ rfl with h | h | h <;> exact absurd h (by decide)

theorem readUnsigned_ofNat {rest : List Char} (hrest : Follows rest) (negative : Bool) (n : Nat) :
    readUnsigned l negative (Decimal.ofNat n ++ rest) =
      if l.takesNumber true (Decimal.ofNat n).length then
        some (.int (signed negative n), rest) else none := by
  have hzero : ¬ ((Decimal.ofNat n).head? = some '0' ∧ 1 < (Decimal.ofNat n).length) := by
    rintro ⟨hhead, hlen⟩
    rw [Decimal.ofNat_of_head hhead] at hlen
    exact absurd hlen (by decide)
  rw [readUnsigned, Scientific.readDigits_append (Decimal.ofNat_ne_nil n)
    Decimal.isDigit_of_mem_ofNat (noDigitFirst_of_follows hrest)]
  simp only [Option.bind_eq_bind, Option.bind_some, if_neg hzero,
    readFraction_of_no_point (head?_of_follows hrest), readExponent_of_follows hrest,
    Option.isNone_none, Bool.and_self, if_true, Decimal.digitsValue_ofNat]
  cases l.takesNumber true (Decimal.ofNat n).length <;> rfl

theorem readNumber_digit {c : Char} (hc : c.isDigit = true) (cs : List Char) :
    readNumber l (c :: cs) = readUnsigned l false (c :: cs) := by
  rw [readNumber.eq_def]
  split
  all_goals first | rfl | skip
  all_goals
    next h =>
      obtain ⟨rfl, -⟩ := List.cons.inj h
      exact absurd hc (by decide)

theorem readNumber_minus {c : Char} (hc : c.isDigit = true) (cs : List Char) :
    readNumber l ('-' :: c :: cs) = readUnsigned l true (c :: cs) := by
  rw [readNumber.eq_def]
  split
  · next h => exact absurd (List.cons.inj h).1 (by decide)
  · next h => exact absurd (List.cons.inj h).1 (by decide)
  · next h =>
    obtain ⟨rfl, -⟩ := List.cons.inj (List.cons.inj h).2
    exact absurd hc (by decide)
  · next h => rw [(List.cons.inj h).2]
  · next h => exact absurd rfl (h _)

theorem readNumber_ofInt {rest : List Char} (hrest : Follows rest) (n : Int) :
    readNumber l (Decimal.ofInt n ++ rest) =
      if l.takesNumber true (Decimal.ofNat n.natAbs).length then some (.int n, rest) else none := by
  have hdigit (m : Nat) : ∃ c cs, Decimal.ofNat m ++ rest = c :: cs ∧ c.isDigit = true := by
    obtain ⟨c, cs, hcs⟩ := List.exists_cons_of_ne_nil (Decimal.ofNat_ne_nil m)
    exact ⟨c, cs ++ rest, by rw [hcs, List.cons_append],
      Decimal.isDigit_of_mem_ofNat c (hcs ▸ List.mem_cons_self)⟩
  cases n with
  | ofNat n =>
    obtain ⟨c, cs, hcs, hc⟩ := hdigit n
    rw [Decimal.ofInt, hcs, readNumber_digit hc, ← hcs, readUnsigned_ofNat hrest]
    rfl
  | negSucc n =>
    obtain ⟨c, cs, hcs, hc⟩ := hdigit (n + 1)
    rw [Decimal.ofInt, List.cons_append, hcs, readNumber_minus hc, ← hcs, readUnsigned_ofNat hrest]
    rfl

/-- What starts with a digit or a minus is read as a number. -/
theorem readValue_number {c : Char} (hc : c.isDigit = true ∨ c = '-') (fuel depth : Nat)
    {gap : List Char} (hgap : ∀ c ∈ gap, isGap c = true) (cs : List Char) :
    readValue l (fuel + 1) depth (gap ++ c :: cs) = readNumber l (c :: cs) := by
  have hc' : isGap c = false := by
    rcases hc with hc | rfl
    · exact isGap_of_isDigit hc
    · decide
  rw [readValue, skipGap_append hgap, skipGap_cons hc']
  split
  all_goals first | rfl | skip
  all_goals
    next h =>
      obtain ⟨rfl, -⟩ := List.cons.inj h
      exact absurd hc (by decide)

theorem readValue_ofInt {gap rest : List Char} (hgap : ∀ c ∈ gap, isGap c = true)
    (hrest : Follows rest) (fuel depth : Nat) (n : Int) :
    readValue l (fuel + 1) depth (gap ++ (Decimal.ofInt n ++ rest)) =
      if l.takesNumber true (Decimal.ofNat n.natAbs).length then some (.int n, rest) else none := by
  have hfirst : ∃ c cs, Decimal.ofInt n ++ rest = c :: cs ∧ (c.isDigit = true ∨ c = '-') := by
    cases n with
    | ofNat n =>
      obtain ⟨c, cs, hcs⟩ := List.exists_cons_of_ne_nil (Decimal.ofNat_ne_nil n)
      exact ⟨c, cs ++ rest, by rw [Decimal.ofInt, hcs, List.cons_append],
        .inl (Decimal.isDigit_of_mem_ofNat c (hcs ▸ List.mem_cons_self))⟩
    | negSucc n => exact ⟨'-', _, rfl, .inr rfl⟩
  obtain ⟨c, cs, hcs, hc⟩ := hfirst
  rw [hcs, readValue_number hc fuel depth hgap, ← hcs, readNumber_ofInt hrest]

/-! ### Arrays and objects -/

/-- A value is read back: within its limits the reader gives it and leaves what follows it. -/
def ReadsBack (l : Limits) (st : Style) (v : Json) : Prop :=
  ∀ (fuel depth : Nat) (gap rest : List Char), (∀ c ∈ gap, isGap c = true) → Follows rest →
    (write st v rest).length < fuel + rest.length →
      readValue l fuel depth (gap ++ write st v rest) =
        if fits l depth v then some (v, rest) else none

/-- To be read back takes at least one call. -/
theorem readsBack_of_succ {v : Json} (hv : AllFloats (FloatReadBack l st) v)
    (h : ∀ (fuel depth : Nat) (gap rest : List Char), (∀ c ∈ gap, isGap c = true) → Follows rest →
      (write st v rest).length ≤ fuel + rest.length →
        readValue l (fuel + 1) depth (gap ++ write st v rest) =
          if fits l depth v then some (v, rest) else none) :
    ReadsBack l st v := by
  intro fuel depth gap rest hgap hrest hfuel
  have hlen := length_write hv rest
  obtain ⟨fuel, rfl⟩ : ∃ f, fuel = f + 1 := ⟨fuel - 1, by omega⟩
  exact h fuel depth gap rest hgap hrest (by omega)

theorem write_first {v : Json} (hv : AllFloats (FloatReadBack l st) v) (rest : List Char) :
    ∃ c cs, write st v rest = c :: cs ∧ isGap c = false ∧ c ≠ ']' := by
  cases hv with
  | null => exact ⟨'n', _, rfl, by decide, by decide⟩
  | bool b =>
    cases b with
    | true => exact ⟨'t', _, rfl, by decide, by decide⟩
    | false => exact ⟨'f', _, rfl, by decide, by decide⟩
  | int n =>
    cases n with
    | ofNat n =>
      obtain ⟨c, cs, hcs⟩ := List.exists_cons_of_ne_nil (Decimal.ofNat_ne_nil n)
      have hc := Decimal.isDigit_of_mem_ofNat c (hcs ▸ List.mem_cons_self)
      refine ⟨c, cs ++ rest, by rw [write, Decimal.ofInt, hcs, List.cons_append],
        isGap_of_isDigit hc, ?_⟩
      rintro rfl
      exact absurd hc (by decide)
    | negSucc n => exact ⟨'-', _, rfl, by decide, by decide⟩
  | float hx =>
    obtain ⟨c, cs, hcs, hc⟩ := hx.first
    exact ⟨c, cs ++ rest, by rw [write, hcs, List.cons_append], hc⟩
  | str s => exact ⟨'"', _, rfl, by decide, by decide⟩
  | @arr vs _ =>
    cases vs with
    | nil => exact ⟨'[', _, by rw [write], by decide, by decide⟩
    | cons v vs => exact ⟨'[', _, by rw [write], by decide, by decide⟩
  | @obj ms _ =>
    cases ms with
    | nil => exact ⟨'{', _, by rw [write], by decide, by decide⟩
    | cons m ms => exact ⟨'{', _, by rw [write], by decide, by decide⟩

theorem follows_writeElements (st : Style) (vs : List Json) (rest : List Char) :
    Follows (writeElements st vs (']' :: rest)) := by
  cases vs <;> rw [writeElements] <;> intro c hc <;> cases hc <;> simp

theorem follows_writeMembers (st : Style) (ms : List (String × Json)) (rest : List Char) :
    Follows (writeMembers st ms ('}' :: rest)) := by
  cases ms <;> rw [writeMembers] <;> intro c hc <;> cases hc <;> simp

theorem readElements_write (hst : st.Readable) {v : Json} {vs : List Json}
    (hv : ∀ w ∈ v :: vs, AllFloats (FloatReadBack l st) w)
    (h : ∀ w ∈ v :: vs, ReadsBack l st w) (fuel depth : Nat) (gap : List Char) {rest : List Char}
    (hgap : ∀ c ∈ gap, isGap c = true)
    (hfuel : (write st v (writeElements st vs (']' :: rest))).length < fuel + rest.length) :
    readElements l fuel depth (gap ++ write st v (writeElements st vs (']' :: rest))) =
      if fits l depth v && fitsElements l depth vs then some (v :: vs, rest) else none := by
  induction vs generalizing v fuel gap with
  | nil =>
    rw [writeElements] at hfuel ⊢
    have hlen := length_write (hv v List.mem_cons_self) (']' :: rest)
    rw [List.length_cons] at hlen
    obtain ⟨fuel, rfl⟩ : ∃ f, fuel = f + 1 := ⟨fuel - 1, by omega⟩
    rw [readElements, h v List.mem_cons_self fuel depth gap (']' :: rest) hgap
      (follows_writeElements st [] rest) (by rw [List.length_cons]; omega)]
    cases fits l depth v
    · rfl
    · simp only [if_true, Option.bind_eq_bind, Option.bind_some, fitsElements, Bool.and_self,
        skipGap_cons (show isGap ']' = false by decide)]
      rfl
  | cons w ws ih =>
    obtain ⟨hv, hvs⟩ := List.forall_mem_cons.1 hv
    obtain ⟨hread, hreads⟩ := List.forall_mem_cons.1 h
    have hfollows := follows_writeElements st (w :: ws) rest
    rw [writeElements] at hfuel hfollows ⊢
    have hlen := length_write hv
      (',' :: (st.gap ++ write st w (writeElements st ws (']' :: rest))))
    have hlens := length_writeElements (fun w' hw' => length_write (hvs w' hw')) (']' :: rest)
    rw [writeElements] at hlens
    simp only [List.length_cons, List.length_append] at hlen hlens
    obtain ⟨fuel, rfl⟩ : ∃ f, fuel = f + 1 := ⟨fuel - 1, by omega⟩
    rw [readElements, hread fuel depth gap _ hgap hfollows (by
      simp only [List.length_cons, List.length_append]; omega)]
    have hrest := ih hvs hreads fuel st.gap hst.gap (by omega)
    cases fits l depth v
    · rfl
    · simp only [if_true, Option.bind_eq_bind, Option.bind_some, fitsElements, Bool.true_and,
        skipGap_cons (show isGap ',' = false by decide), hrest]
      split <;> rfl

theorem readMembers_write (hst : st.Readable) {m : String × Json} {ms : List (String × Json)}
    (hv : ∀ m' ∈ m :: ms, AllFloats (FloatReadBack l st) m'.2)
    (h : ∀ m' ∈ m :: ms, ReadsBack l st m'.2) (fuel depth : Nat) (gap : List Char)
    {rest : List Char} (hgap : ∀ c ∈ gap, isGap c = true)
    (hfuel : (writeString st m.1 (':' :: (st.gap ++
      write st m.2 (writeMembers st ms ('}' :: rest))))).length < fuel + rest.length) :
    readMembers l fuel depth (gap ++ writeString st m.1 (':' :: (st.gap ++
      write st m.2 (writeMembers st ms ('}' :: rest))))) =
      if fits l depth m.2 && fitsMembers l depth ms then some (m :: ms, rest) else none := by
  induction ms generalizing m fuel gap with
  | nil =>
    rw [writeMembers] at hfuel ⊢
    have hlen := length_write (hv m List.mem_cons_self) ('}' :: rest)
    have hlens := length_writeString st m.1 (':' :: (st.gap ++ write st m.2 ('}' :: rest)))
    simp only [List.length_cons, List.length_append] at hlen hlens
    obtain ⟨fuel, rfl⟩ : ∃ f, fuel = f + 1 := ⟨fuel - 1, by omega⟩
    have hvalue := h m List.mem_cons_self fuel depth st.gap ('}' :: rest) hst.gap
      (follows_writeMembers st [] rest) (by rw [List.length_cons]; omega)
    rw [readMembers, skipGap_append hgap, writeString, skipGap_cons (by decide)]
    simp only [readString_chars hst, Option.bind_eq_bind, Option.bind_some,
      skipGap_cons (show isGap ':' = false by decide), hvalue]
    cases fits l depth m.2
    · rfl
    · simp only [if_true, Option.bind_some, fitsMembers, Bool.and_self,
        skipGap_cons (show isGap '}' = false by decide), String.ofList_toList]
      rfl
  | cons m' ms ih =>
    obtain ⟨hv, hvs⟩ := List.forall_mem_cons.1 hv
    obtain ⟨hread, hreads⟩ := List.forall_mem_cons.1 h
    have hfollows := follows_writeMembers st (m' :: ms) rest
    rw [writeMembers] at hfuel hfollows ⊢
    have hlens := length_writeMembers (fun w hw => length_write (hvs w hw)) ('}' :: rest)
    rw [writeMembers] at hlens
    have hlen := length_write hv (',' :: (st.gap ++ writeString st m'.1
      (':' :: (st.gap ++ write st m'.2 (writeMembers st ms ('}' :: rest))))))
    have hlenString := length_writeString st m.1 (':' :: (st.gap ++ write st m.2
      (',' :: (st.gap ++ writeString st m'.1
        (':' :: (st.gap ++ write st m'.2 (writeMembers st ms ('}' :: rest))))))))
    simp only [List.length_cons, List.length_append] at hlen hlens hlenString
    obtain ⟨fuel, rfl⟩ : ∃ f, fuel = f + 1 := ⟨fuel - 1, by omega⟩
    have hvalue := hread fuel depth st.gap _ hst.gap hfollows (by
      simp only [List.length_cons, List.length_append]; omega)
    have hrest := ih hvs hreads fuel st.gap hst.gap (by omega)
    rw [readMembers, skipGap_append hgap, writeString, skipGap_cons (by decide)]
    simp only [readString_chars hst, Option.bind_eq_bind, Option.bind_some,
      skipGap_cons (show isGap ':' = false by decide), hvalue]
    cases fits l depth m.2
    · rfl
    · simp only [if_true, Option.bind_some, fitsMembers, Bool.true_and,
        skipGap_cons (show isGap ',' = false by decide), hrest, String.ofList_toList]
      split <;> rfl

/-- An array that does not end at once is read if some depth is left. -/
theorem readValue_array {gap s : List Char} {c : Char} {cs : List Char}
    (hgap : ∀ c ∈ gap, isGap c = true) (hs : skipGap s = c :: cs) (hc : c ≠ ']')
    (fuel depth : Nat) :
    readValue l (fuel + 1) depth (gap ++ '[' :: s) =
      match depth with
      | 0 => none
      | depth + 1 => (readElements l fuel depth (c :: cs)).map fun r => (.arr r.1, r.2) := by
  rw [readValue, skipGap_append hgap, skipGap_cons (by decide)]
  simp only [hs]
  split
  · next h => exact absurd (List.cons.inj h).1 hc
  · rfl
  · rfl

/-- An object that does not end at once is read if some depth is left. -/
theorem readValue_object {gap s : List Char} (hgap : ∀ c ∈ gap, isGap c = true)
    (fuel depth : Nat) :
    readValue l (fuel + 1) depth (gap ++ '{' :: '"' :: s) =
      match depth with
      | 0 => none
      | depth + 1 => (readMembers l fuel depth ('"' :: s)).map fun r => (.obj r.1, r.2) := by
  rw [readValue, skipGap_append hgap, skipGap_cons (by decide)]
  cases depth <;> rfl

/-- Every value is read back whose floating-point numbers are. -/
theorem readsBack (hst : st.Readable) {v : Json} (hv : AllFloats (FloatReadBack l st) v) :
    ReadsBack l st v := by
  induction v using induction with
  | null =>
    refine readsBack_of_succ hv fun fuel depth gap rest hgap _ _ => ?_
    rw [readValue, skipGap_append hgap]
    rfl
  | bool b =>
    refine readsBack_of_succ hv fun fuel depth gap rest hgap _ _ => ?_
    rw [readValue, skipGap_append hgap]
    cases b <;> rfl
  | int n =>
    refine readsBack_of_succ hv fun fuel depth gap rest hgap hrest _ => ?_
    rw [write, readValue_ofInt hgap hrest]
    rfl
  | float x =>
    refine readsBack_of_succ hv fun fuel depth gap rest hgap hrest _ => ?_
    cases hv with
    | float hx => exact hx.readValue fuel depth gap rest hgap hrest
  | str s =>
    refine readsBack_of_succ hv fun fuel depth gap rest hgap _ _ => ?_
    rw [readValue, skipGap_append hgap, write, writeString, skipGap_cons (by decide)]
    simp only [readString_chars hst, Option.map_some, String.ofList_toList]
    rfl
  | arr vs ih =>
    refine readsBack_of_succ hv fun fuel depth gap rest hgap _ hfuel => ?_
    cases hv with
    | arr hvs =>
      cases vs with
      | nil => rw [readValue, skipGap_append hgap]; rfl
      | cons v vs =>
        have hreads (w : Json) (hw : w ∈ v :: vs) : ReadsBack l st w := ih w hw (hvs w hw)
        obtain ⟨c, cs, hcs, hc, hbracket⟩ :=
          write_first (hvs v List.mem_cons_self) (writeElements st vs (']' :: rest))
        rw [write, List.length_cons] at hfuel
        rw [write, readValue_array hgap (by rw [hcs, skipGap_cons hc]) hbracket, ← hcs]
        cases depth with
        | zero => rfl
        | succ depth =>
          have helements := readElements_write hst hvs hreads fuel depth [] nofun hfuel
          rw [List.nil_append] at helements
          dsimp only
          rw [helements, apply_ite (Option.map _)]
          rfl
  | obj ms ih =>
    refine readsBack_of_succ hv fun fuel depth gap rest hgap _ hfuel => ?_
    cases hv with
    | obj hms =>
      cases ms with
      | nil => rw [readValue, skipGap_append hgap]; rfl
      | cons m ms =>
        have hreads (m' : String × Json) (hm : m' ∈ m :: ms) : ReadsBack l st m'.2 :=
          ih m' hm (hms m' hm)
        rw [write, List.length_cons] at hfuel
        rw [write, writeString, readValue_object hgap, ← writeString]
        cases depth with
        | zero => rfl
        | succ depth =>
          have hmembers := readMembers_write hst hms hreads fuel depth [] nofun hfuel
          rw [List.nil_append] at hmembers
          dsimp only
          rw [hmembers, apply_ite (Option.map _)]
          rfl

/-- The whole text of a value is read back as the value, if it is within the limits. -/
theorem readWithin?_print {v : Json} (hv : AllFloats (FloatReadBack l .compact) v) :
    readWithin? l v.print = if fits l l.depth v then some v else none := by
  have hread := readsBack readable_compact hv ((write .compact v []).length + 1) l.depth [] []
    nofun nofun (by simp)
  rw [List.nil_append] at hread
  simp only [readWithin?, print, String.toList_ofList, hread]
  cases fits l l.depth v <;> rfl

end CatalogSearch.Json
