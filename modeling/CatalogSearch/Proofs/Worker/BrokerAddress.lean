import CatalogSearch.Proofs.Text.IntLiteral
import CatalogSearch.Proofs.Url.Plain
import CatalogSearch.Worker.BrokerAddress

/-!
# Broker addresses are read back

A URL that names a broker by its parts is read back as these parts, whichever of them are left out:
`BrokerUrl.ofUrl_text`. The separators of the parts may occur in the password. The one thing that is
refused is a database number of more digits than integers are read with.
-/

namespace CatalogSearch

/-- Whether a character may stand in the name of a host. -/
def BrokerUrl.isHostChar (c : Char) : Bool := c.isAlphanum || c = '.' || c = '-'

/-- The parts of a broker's URL. All but the host may be left out. -/
structure BrokerUrl where
  password : Option (List Char)
  host : List Char
  port : Option Nat
  database : Option Nat
  host_ne_nil : host ≠ []
  host_chars : ∀ c ∈ host, BrokerUrl.isHostChar c = true
  password_chars : ∀ word ∈ password, ∀ c ∈ word, Url.isPlain c = true
  port_pos : ∀ n ∈ port, 0 < n
  port_le : ∀ n ∈ port, n ≤ 65535

namespace BrokerUrl

open Text

variable {c : Char} (u : BrokerUrl)

/-- The password between a colon and an `@`, if it is given. -/
def credentials : List Char :=
  match u.password with
  | some word => (':' :: word) ++ ['@']
  | none => []

/-- A colon and the port, if it is given. -/
def portText : List Char :=
  match u.port with
  | some n => ':' :: Decimal.ofNat n
  | none => []

/-- A slash and the number of the database, if it is given. -/
def path : List Char :=
  match u.database with
  | some n => '/' :: Decimal.ofNat n
  | none => []

/-- The host with the port. -/
def hostText : List Char := u.host ++ u.portText

/-- The credentials and the host with the port. -/
def authority : List Char := u.credentials ++ u.hostText

/-- The URL. -/
def text : String := "redis://" ++ String.ofList (u.authority ++ u.path)

/-- The address that the parts give, with the port 6379 and the database zero in place of what is
left out. -/
def address : BrokerAddress where
  host := String.ofList (u.host.map Char.toLower)
  port := u.port.getD 6379
  password := u.password.map String.ofList
  database := u.database.getD 0

/-- How many digits the number of the database has. -/
def databaseDigits : Nat := (Decimal.ofNat (u.database.getD 0)).length

/-! ### The characters of the parts -/

theorem isSchemeChar_of_isHostChar (h : isHostChar c = true) : Url.isSchemeChar c = true := by
  simp only [isHostChar, Bool.or_eq_true] at h
  simp only [Url.isSchemeChar, Bool.or_eq_true]
  tauto

theorem isHostChar_of_isDigit (h : c.isDigit = true) : isHostChar c = true := by
  simp [isHostChar, Char.isAlphanum, h]

theorem isPlain_of_isHostChar (h : isHostChar c = true) : Url.isPlain c = true :=
  Url.isPlain_of_isSchemeChar (isSchemeChar_of_isHostChar h)

theorem isHostChar_of_mem_ofNat {n : Nat} : ∀ c ∈ Decimal.ofNat n, isHostChar c = true :=
  fun c hc => isHostChar_of_isDigit (Decimal.isDigit_of_mem_ofNat c hc)

theorem portText_chars : ∀ c ∈ u.portText, c = ':' ∨ isHostChar c = true := by
  rw [portText]
  split
  · exact List.forall_mem_cons.2 ⟨.inl rfl, fun c hc => .inr (isHostChar_of_mem_ofNat c hc)⟩
  · nofun

theorem hostText_chars : ∀ c ∈ u.hostText, c = ':' ∨ isHostChar c = true :=
  List.forall_mem_append.2 ⟨fun c hc => .inr (u.host_chars c hc), u.portText_chars⟩

theorem not_mem_hostText (hc : isHostChar c = false) (hcolon : c ≠ ':') : c ∉ u.hostText :=
  not_mem_of_forall_or u.hostText_chars hc hcolon

theorem isPlain_of_mem_authority : ∀ c ∈ u.authority, Url.isPlain c = true := by
  refine List.forall_mem_append.2 ⟨?_, fun c hc => ?_⟩
  · rw [credentials]
    split
    · next word hword =>
      refine List.forall_mem_append.2 ⟨List.forall_mem_cons.2 ⟨by decide, ?_⟩, ?_⟩
      · exact u.password_chars word hword
      · exact List.forall_mem_singleton.2 (by decide)
    · nofun
  · rcases u.hostText_chars c hc with rfl | h
    · decide
    · exact isPlain_of_isHostChar h

theorem plainPath_path : Url.PlainPath u.path where
  first := by
    rw [path]
    split <;> simp
  all := by
    rw [path]
    split
    · refine List.forall_mem_cons.2 ⟨.inl rfl, fun c hc => .inr ?_⟩
      exact isPlain_of_isHostChar (isHostChar_of_mem_ofNat c hc)
    · nofun

/-! ### Reading -/

/-- The URL of the parts, split at the authority. -/
def url : Url := ⟨"redis".toList, u.authority, u.path⟩

theorem ofText_text : Url.ofText u.text.toList = .ok u.url := by
  have hname : Url.IsScheme "redis".toList := ⟨by decide, by decide⟩
  have htext : u.text.toList = "redis".toList ++ ':' :: '/' :: '/' :: (u.authority ++ u.path) := by
    simp only [text, String.toList_append, String.toList_ofList]
    rfl
  rw [htext, Url.ofText_of_plain hname (by decide +kernel) u.isPlain_of_mem_authority
    u.plainPath_path]
  rfl

theorem afterLast_authority : afterLast '@' u.authority = u.hostText := by
  have hat : '@' ∉ u.hostText := u.not_mem_hostText (by decide) (by decide)
  rw [authority, credentials]
  split
  · rw [List.append_assoc, List.singleton_append, afterLast_append hat]
  · rw [List.nil_append, afterLast_of_not_mem hat]

theorem password_url : u.url.password = u.password := by
  have hat : '@' ∉ u.hostText := u.not_mem_hostText (by decide) (by decide)
  cases hpassword : u.password with
  | none =>
    apply Url.password_of_no_user
    rwa [url, authority, credentials, hpassword]
  | some word =>
    have hauthority : u.url.authority = ([] ++ ':' :: word) ++ '@' :: (u.hostText) := by
      rw [url, authority, credentials, hpassword, List.append_assoc]
      rfl
    exact Url.password_of_user hauthority List.not_mem_nil hat

theorem hostAndPort_url :
    u.url.hostAndPort = (u.host, (u.port.map Decimal.ofNat).getD []) := by
  have hbracket : '[' ∉ u.hostText := u.not_mem_hostText (by decide) (by decide)
  have hcolon : ':' ∉ u.host := not_mem_of_forall u.host_chars (by decide)
  rw [Url.hostAndPort_of_no_bracket u.afterLast_authority hbracket, hostText, portText]
  cases u.port with
  | none => rw [List.append_nil, before_of_not_mem hcolon, after?_of_not_mem hcolon]; rfl
  | some n => rw [before_append hcolon, after?_append hcolon]; rfl

theorem host_url : u.url.host = u.host.map Char.toLower := by
  apply Url.host_of_ascii
  · rw [hostAndPort_url]
  · exact not_mem_of_forall u.host_chars (by decide)
  · exact fun c hc => Url.toNat_lt_of_isSchemeChar (isSchemeChar_of_isHostChar (u.host_chars c hc))

theorem port_url : u.url.port = .ok u.port := by
  cases hport : u.port with
  | none =>
    apply Url.port_of_empty
    rw [hostAndPort_url, hport]
    rfl
  | some n =>
    apply Url.port_of_ofNat
    · rw [hostAndPort_url, hport]
      rfl
    · exact u.port_le n hport

theorem databaseOfPath_path :
    BrokerAddress.databaseOfPath u.path =
      if digitLimit < u.databaseDigits then .error (.tooLong u.databaseDigits)
      else .ok (u.database.getD 0) := by
  rw [path, databaseDigits]
  cases u.database with
  | none =>
    have hlen : (Decimal.ofNat 0).length ≤ 1 := Decimal.length_ofNat_le (by decide) (by decide)
    have hshort : (Decimal.ofNat 0).length ≤ digitLimit := Nat.le_trans hlen (by decide)
    exact (if_neg (Nat.not_lt.2 hshort)).symm
  | some n =>
    have hslash : '/' ∉ Decimal.ofNat n := not_mem_of_forall isHostChar_of_mem_ofNat (by decide)
    have hdrop : ('/' :: Decimal.ofNat n).dropWhile (· = '/') = Decimal.ofNat n :=
      dropWhile_append_of_first (List.forall_mem_singleton.2 (by decide)) fun c hc =>
        decide_eq_false (ne_of_mem_of_not_mem (List.mem_of_head? hc) hslash)
    have hne : (Decimal.ofNat n).isEmpty = false :=
      List.isEmpty_eq_false_iff.2 (Decimal.ofNat_ne_nil n)
    simp only [BrokerAddress.databaseOfPath, hdrop, hne, readInt_ofNat]
    rfl

/-- All parts but the database are read whatever the database is. -/
theorem ofUrl_text_eq :
    BrokerAddress.ofUrl u.text =
      ((BrokerAddress.databaseOfPath u.path).mapError .database).map
        fun database => { u.address with database } := by
  have hhost : (u.host.map Char.toLower).isEmpty = false := by
    simpa using u.host_ne_nil
  have hport : (if u.port.getD 0 = 0 then 6379 else u.port.getD 0) = u.port.getD 6379 := by
    cases h : u.port with
    | none => rfl
    | some n => exact if_neg (Nat.pos_iff_ne_zero.1 (u.port_pos n h))
  rw [BrokerAddress.ofUrl, ofText_text]
  change (u.url.port.mapError BrokerAddress.Error.url >>= fun port => _) = _
  rw [port_url]
  change ((BrokerAddress.databaseOfPath u.path).mapError BrokerAddress.Error.database >>= _) = _
  cases BrokerAddress.databaseOfPath u.path with
  | error e => rfl
  | ok database =>
    refine congrArg Except.ok ?_
    simp only [host_url, password_url, hhost, hport, address]
    rfl

/-- The parts are read back, with the defaults for what is left out, unless the number of the
database has too many digits. -/
theorem ofUrl_text :
    BrokerAddress.ofUrl u.text =
      if digitLimit < u.databaseDigits then .error (.database (.tooLong u.databaseDigits))
      else .ok u.address := by
  rw [ofUrl_text_eq, databaseOfPath_path]
  split <;> rfl

/-- A URL with all parts, whose password has the separators of the parts in it. -/
def sampleUrl : BrokerUrl where
  password := some "a:b@c%;+".toList
  host := "Cache.Internal".toList
  port := some 6380
  database := some 2
  host_ne_nil := by decide
  host_chars := List.all_eq_true.1 (by decide)
  password_chars := fun | _, rfl => List.all_eq_true.1 (by decide)
  port_pos := fun | _, rfl => by decide
  port_le := fun | _, rfl => by decide

theorem ofUrl_sampleUrl :
    sampleUrl.text = "redis://:a:b@c%;+@Cache.Internal:6380/2" ∧
    BrokerAddress.ofUrl sampleUrl.text = .ok ⟨"cache.internal", 6380, some "a:b@c%;+", 2⟩ := by
  refine ⟨by decide +kernel, ?_⟩
  rw [ofUrl_text]
  decide +kernel

/-- The URL of a database on a host with all else left out. -/
def ofDatabase (n : Nat) : BrokerUrl where
  password := none
  host := ['h']
  port := none
  database := some n
  host_ne_nil := by decide
  host_chars := List.forall_mem_singleton.2 (by decide)
  password_chars := by nofun
  port_pos := by nofun
  port_le := by nofun

theorem databaseDigits_ofDatabase (n : Nat) :
    (ofDatabase n).databaseDigits = (Decimal.ofNat n).length := rfl

theorem ofUrl_ofDatabase_pow :
    BrokerAddress.ofUrl (ofDatabase (Nat.pow 10 digitLimit)).text ≠
      .ok (ofDatabase (Nat.pow 10 digitLimit)).address := by
  have hdigits : digitLimit < (ofDatabase (Nat.pow 10 digitLimit)).databaseDigits := by
    rw [databaseDigits_ofDatabase]
    exact Decimal.lt_length_ofNat_pow (by decide)
  rw [ofUrl_text_eq, databaseOfPath_path, if_pos hdigits]
  nofun

end BrokerUrl

end CatalogSearch
