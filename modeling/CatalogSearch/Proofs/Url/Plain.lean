import CatalogSearch.Proofs.Number.Decimal
import CatalogSearch.Proofs.Text.Lowercase
import CatalogSearch.Proofs.Text.Split
import CatalogSearch.Url

/-!
# Plain URLs

URLs of printable ASCII characters whose authority has no bracket in it. Such a URL falls into its
scheme, its authority and its path (`ofText_of_plain`), and the authority into the password and the
host with its port, where the password may have the separators in it (`password_of_user`).
-/

namespace CatalogSearch.Url

open Text

variable {c : Char} {name authority path user word rest s : List Char} {u : Url}

/-- Whether a character is printable ASCII and neither ends an authority nor is a bracket. -/
def isPlain (c : Char) : Bool :=
  0x20 ≤ c.toNat && c.toNat ≤ 0x7E && !(['/', '?', '#', '[', ']'].contains c)

/-- The name of a scheme: a letter, then letters, digits and the signs that a scheme may have. -/
structure IsScheme (name : List Char) : Prop where
  first : (name.head?.map Char.isAlpha).getD false = true
  all : name.all isSchemeChar = true

/-- A path is empty or starts with a slash, and nothing but slashes is not plain in it. -/
structure PlainPath (path : List Char) : Prop where
  first : ∀ c ∈ path.head?, c = '/'
  all : ∀ c ∈ path, c = '/' ∨ isPlain c = true

theorem IsScheme.ne_nil (h : IsScheme name) : name ≠ [] := by
  rintro rfl
  cases h.first

/-! ### Plain characters -/

theorem toNat_le_of_isPlain (h : isPlain c = true) : c.toNat ≤ 0x7E := by
  simp only [isPlain, Bool.and_eq_true, decide_eq_true_eq] at h
  exact h.1.2

theorem toNat_lt_of_isSchemeChar (h : isSchemeChar c = true) : c.toNat < 128 := by
  simp only [isSchemeChar, Bool.or_eq_true, decide_eq_true_eq] at h
  rcases h with ((h | rfl) | rfl) | rfl
  · exact toNat_lt_of_isAlphanum h
  all_goals decide

theorem lt_toNat_of_isSchemeChar (h : isSchemeChar c = true) : 0x20 < c.toNat :=
  forall_ascii (P := fun c => isSchemeChar c = true → 0x20 < c.toNat) (by decide +kernel)
    (toNat_lt_of_isSchemeChar h) h

theorem isPlain_of_isSchemeChar (h : isSchemeChar c = true) : isPlain c = true :=
  forall_ascii (P := fun c => isSchemeChar c = true → isPlain c = true) (by decide +kernel)
    (toNat_lt_of_isSchemeChar h) h

/-! ### Splitting a text -/

theorem splitScheme_of_isScheme (h : IsScheme name) :
    splitScheme (name ++ ':' :: rest) = (name.map Char.toLower, rest) := by
  have hcolon : ':' ∉ name := fun hmem =>
    absurd (List.all_eq_true.1 h.all ':' hmem) (by decide)
  simp only [splitScheme, before_append hcolon, after?_append hcolon, h.first, h.all,
    Bool.and_self, if_true]

theorem splitAuthority_of_plain (hauthority : ∀ c ∈ authority, isPlain c = true)
    (hpath : PlainPath path) :
    splitAuthority ('/' :: '/' :: (authority ++ path)) = (authority, path) := by
  have hinside : ∀ c ∈ authority, (!endsAuthority c) = true := by
    intro c hc
    have hne {d : Char} (hd : isPlain d = false) : c ≠ d :=
      ne_of_mem_of_not_mem hc (not_mem_of_forall hauthority hd)
    simp [endsAuthority, hne (d := '/') (by decide), hne (d := '?') (by decide),
      hne (d := '#') (by decide)]
  have hfirst : ∀ c ∈ path.head?, (!endsAuthority c) = false := by
    intro c hc
    rw [hpath.first c hc]
    decide
  rw [splitAuthority, takeWhile_append_of_first hinside hfirst,
    dropWhile_append_of_first hinside hfirst]

theorem checkBrackets_of_plain (h : ∀ c ∈ authority, isPlain c = true) :
    checkBrackets authority = .ok () := by
  have hopening : authority.contains '[' = false := by
    simpa using not_mem_of_forall h (c := '[') (by decide)
  have hclosing : authority.contains ']' = false := by
    simpa using not_mem_of_forall h (c := ']') (by decide)
  rw [checkBrackets, hopening, hclosing]

theorem checkLookalikes_of_plain (h : ∀ c ∈ authority, isPlain c = true) :
    checkLookalikes authority = .ok () := by
  have hfar : ∀ n ∈ separatorLookalikes, 0x7E < n := by decide
  have hnone : authority.any (fun c => separatorLookalikes.contains c.toNat) = false := by
    rw [List.any_eq_false]
    intro c hc hmem
    exact absurd (toNat_le_of_isPlain (h c hc))
      (Nat.not_le.2 (hfar _ (List.contains_iff_mem.1 hmem)))
  rw [checkLookalikes, hnone]
  rfl

/-- No text of plain characters and slashes loses one of them if it starts with a scheme. -/
theorem cleaned_eq_self (hname : IsScheme name) (hrest : ∀ c ∈ rest, c = '/' ∨ isPlain c = true) :
    ((name ++ rest).dropWhile (fun c => c.toNat ≤ 0x20)).filter
      (fun c => !(c = '\t' || c = '\r' || c = '\n')) = name ++ rest := by
  have hscheme : ∀ c ∈ name, isSchemeChar c = true := List.all_eq_true.1 hname.all
  have hfirst : ∀ c ∈ (name ++ rest).head?, decide (c.toNat ≤ 0x20) = false := by
    intro c hc
    rw [List.head?_append_of_ne_nil name hname.ne_nil] at hc
    have hlt := lt_toNat_of_isSchemeChar (hscheme c (List.mem_of_head? hc))
    exact decide_eq_false (Nat.not_le.2 hlt)
  have hkept : ∀ c ∈ name ++ rest, (!(c = '\t' || c = '\r' || c = '\n')) = true := by
    have hall : ∀ c ∈ name ++ rest, c = '/' ∨ isPlain c = true := List.forall_mem_append.2
      ⟨fun c hc => .inr (isPlain_of_isSchemeChar (hscheme c hc)), hrest⟩
    have hne {c d : Char} (hc : c ∈ name ++ rest) (hd : isPlain d = false) (hslash : d ≠ '/') :
        c ≠ d := ne_of_mem_of_not_mem hc (not_mem_of_forall_or hall hd hslash)
    intro c hc
    simp [hne hc (d := '\t') (by decide) (by decide), hne hc (d := '\r') (by decide) (by decide),
      hne hc (d := '\n') (by decide) (by decide)]
  rw [dropWhile_of_first hfirst, List.filter_eq_self.2 hkept]

/-- A URL with a plain authority and path, and a scheme that gives the path no parameters. -/
theorem ofText_of_plain (hname : IsScheme name)
    (hparameters : schemesWithParameters.contains (String.ofList (name.map Char.toLower)) = false)
    (hauthority : ∀ c ∈ authority, isPlain c = true) (hpath : PlainPath path) :
    ofText (name ++ ':' :: '/' :: '/' :: (authority ++ path)) =
      .ok ⟨name.map Char.toLower, authority, path⟩ := by
  have hrest : ∀ c ∈ ':' :: '/' :: '/' :: (authority ++ path), c = '/' ∨ isPlain c = true := by
    refine List.forall_mem_cons.2 ⟨.inr (by decide), List.forall_mem_cons.2 ⟨.inl rfl,
      List.forall_mem_cons.2 ⟨.inl rfl, List.forall_mem_append.2 ⟨fun c hc => ?_, hpath.all⟩⟩⟩⟩
    exact .inr (hauthority c hc)
  have hfragment : before '#' path = path :=
    before_of_not_mem (not_mem_of_forall_or hpath.all (by decide) (by decide))
  have hquery : before '?' path = path :=
    before_of_not_mem (not_mem_of_forall_or hpath.all (by decide) (by decide))
  simp only [ofText, cleaned_eq_self hname hrest, splitScheme_of_isScheme hname,
    splitAuthority_of_plain hauthority hpath, checkBrackets_of_plain hauthority,
    checkLookalikes_of_plain hauthority, hfragment, hquery, hparameters]
  rfl

/-! ### Splitting an authority -/

/-- The user ends at the last `@` and the password starts at the first colon. -/
theorem password_of_user (hu : u.authority = (user ++ ':' :: word) ++ '@' :: rest)
    (huser : ':' ∉ user) (hrest : '@' ∉ rest) : u.password = some word := by
  rw [password, hu, beforeLast?_append hrest, Option.bind_some, after?_append huser]

theorem password_of_no_user (h : '@' ∉ u.authority) : u.password = none := by
  rw [password, beforeLast?_of_not_mem h, Option.bind_none]

theorem hostAndPort_of_no_bracket (hu : afterLast '@' u.authority = s) (hs : '[' ∉ s) :
    u.hostAndPort = (before ':' s, (after? ':' s).getD []) := by
  simp only [hostAndPort, hu, after?_of_not_mem hs]

theorem host_of_ascii (hu : u.hostAndPort.1 = name) (hzone : '%' ∉ name)
    (hname : ∀ c ∈ name, c.toNat < 128) : u.host = name.map Char.toLower := by
  have hnone : name.dropWhile (· ≠ '%') = [] :=
    List.dropWhile_eq_nil_iff.2 fun _ hd => decide_eq_true (ne_of_mem_of_not_mem hd hzone)
  rw [host, hu]
  simp only [hnone, before_of_not_mem hzone, lower_of_ascii hname, List.append_nil]

theorem port_of_empty (hu : u.hostAndPort.2 = []) : u.port = .ok none := by
  rw [port, hu]
  rfl

theorem port_of_ofNat {n : Nat} (hu : u.hostAndPort.2 = Decimal.ofNat n) (hn : n ≤ 65535) :
    u.port = .ok (some n) := by
  have hlen : (Decimal.ofNat n).length ≤ 5 :=
    Decimal.length_ofNat_le (Nat.lt_of_le_of_lt hn (by decide)) (by decide)
  have hshort : (Decimal.ofNat n).length ≤ digitLimit := Nat.le_trans hlen (by decide)
  have hne : (Decimal.ofNat n).isEmpty = false :=
    List.isEmpty_eq_false_iff.2 (Decimal.ofNat_ne_nil n)
  simp only [port, hu, hne, Decimal.toNat?_ofNat, Nat.not_lt.2 hshort, hn]
  rfl

end CatalogSearch.Url
