import CatalogSearch.Proofs.Loading.ReadBack
import CatalogSearch.Proofs.Loading.Rules
import Mathlib.Data.List.Forall2

/-!
# Contents of a cache

A cache that may be out of reach, forget any text at any time and have any text written over that is
no record. `Contents.Coherent` says that what can be read from it as a record is the record of the
store; nothing that happens to the cache by itself breaks it (`Coherent.drift`), nor does writing
records of the store (`cached_versions`, `cached_projects`).
-/

namespace CatalogSearch

namespace Cache

/-- What a cache has under each key. -/
abbrev Contents : Type := String → Option String

/-- A text that is no record of the kind that a key is for. -/
structure Spoilt (key text : String) : Prop where
  version : ∀ id, key = RecordKind.versions.cacheKey id → RecordKind.versions.ofText? text = none
  project : ∀ id, key = RecordKind.projects.cacheKey id → RecordKind.projects.ofText? text = none

namespace Contents

/-- A cache without any text. -/
def empty : Contents := fun _ => none

/-- The cache with a text under a key. -/
def set (c : Contents) (key text : String) : Contents := fun k =>
  if k = key then some text else c k

/-- What becomes of a cache by itself: texts are lost, or others that are no records written over
them. -/
def Drifts (c c' : Contents) : Prop :=
  ∀ key, c' key = c key ∨ c' key = none ∨ ∃ text, c' key = some text ∧ Spoilt key text

/-- What a command may answer, and what it makes of the cache. A read gives under each key what was
last written there or nothing, and a write may be lost; either of them may find the cache out of
reach. The other commands may do so too, or fail in any other way. -/
def Answers (c : Contents) : (command : Command) → Except Fault command.Answer → Contents → Prop
  | .read keys, r, c' => c' = c ∧ ((∃ message, r = .error (.unreachable message)) ∨
      ∃ texts, r = .ok texts ∧
        List.Forall₂ (fun key text? => text? = none ∨ text? = c key) keys texts)
  | .write key _ text, r, c' => (c' = c ∨ c' = c.set key text) ∧
      ((∃ message, r = .error (.unreachable message)) ∨ r = .ok ())
  | .connect _, _, c' => c' = c
  | .ping, _, c' => c' = c
  | .close, _, c' => c' = c
  | .info, _, c' => c' = c

variable {ρ : Type} {c c' : Contents} {k : RecordKind ρ} {records : List Int → List ρ}
  {size : Int} {s : Store}

/-- What is read as a record of a kind has a property, under the id that its key is for. -/
def Within (c : Contents) (k : RecordKind ρ) (P : Int → ρ → Prop) : Prop :=
  ∀ id text r, c (k.cacheKey id) = some text → k.ofText? text = some r → P id r

variable {P P' : Int → ρ → Prop}

theorem within_empty : empty.Within k P := by
  intro id text r h
  cases h

theorem Within.mono (h : c.Within k P) (hP : ∀ id r, P id r → P' id r) : c.Within k P' :=
  fun id text r htext hr => hP id r (h id text r htext hr)

theorem Within.drift (h : c.Within k P) (hc : c.Drifts c')
    (hk : ∀ id text, Spoilt (k.cacheKey id) text → k.ofText? text = none) : c'.Within k P := by
  intro id text r htext hr
  rcases hc (k.cacheKey id) with heq | hnone | ⟨text', htext', hspoilt⟩
  · exact h id text r (heq ▸ htext) hr
  · rw [hnone] at htext
    cases htext
  · rw [htext'] at htext
    cases htext
    rw [hk id text hspoilt] at hr
    cases hr

/-- The text of a record with the property may be written under its key. -/
theorem Within.set_self (h : c.Within k P) {id : Int} {r : ρ} (hr : k.ReadsBack r) (hid : P id r) :
    (c.set (k.cacheKey id) (k.text r)).Within k P := by
  intro id' text r' htext hr'
  rw [set] at htext
  split at htext
  · next hkey =>
    cases htext
    rw [RecordKind.cacheKey_inj hkey, hr r' hr']
    exact hid
  · exact h id' text r' htext hr'

theorem Within.set_of_ne (h : c.Within k P) {key : String} (hkey : ∀ id, k.cacheKey id ≠ key)
    (text : String) : (c.set key text).Within k P := by
  intro id text' r htext hr
  rw [set, if_neg (hkey id)] at htext
  exact h id text' r htext hr

/-- The records that a read gives are among those asked for, and have the property. -/
theorem Within.holds_validRecords (h : c.Within k P) {ids : List Int} {texts : List (Option String)}
    (htexts : List.Forall₂ (fun key text? => text? = none ∨ text? = c key) (ids.map k.cacheKey)
      texts) :
    Loading.Holds (fun id r => id ∈ ids ∧ P id r) (Loading.validRecords k ids texts) := by
  apply Loading.holds_validRecords
  intro id text r hmem hr
  refine ⟨(List.of_mem_zip hmem).1, ?_⟩
  rcases (List.forall₂_iff_zip.1 (List.forall₂_map_left_iff.1 htexts)).2 hmem with hnone | htext
  · cases hnone
  · exact h id text r htext.symm hr

/-- What is read as a record of a kind is the record that the store has. -/
def Faithful (c : Contents) (k : RecordKind ρ) (records : List Int → List ρ) (size : Int) : Prop :=
  ∀ id text r, c (k.cacheKey id) = some text → k.ofText? text = some r →
    Loading.stored records size id = some r

/-- What is read from the cache is what the store has, in batches of a size. -/
structure Coherent (s : Store) (size : Int) (c : Contents) : Prop where
  versions : c.Faithful .versions s.versionRecords size
  projects : c.Faithful .projects s.projectRecords size

theorem Faithful.of_interchangeable {size' : Int} (h : Loading.Interchangeable size size')
    (hc : c.Faithful k records size) : c.Faithful k records size' :=
  Within.mono hc fun id _ hr => h.stored records id ▸ hr

theorem Coherent.of_interchangeable {size' : Int} (h : Loading.Interchangeable size size')
    (hc : c.Coherent s size) : c.Coherent s size' :=
  ⟨hc.versions.of_interchangeable h, hc.projects.of_interchangeable h⟩

theorem coherent_empty : empty.Coherent s size := ⟨within_empty, within_empty⟩

theorem Coherent.drift (h : c.Coherent s size) (hc : c.Drifts c') : c'.Coherent s size where
  versions := Within.drift h.versions hc fun id _ hspoilt => hspoilt.version id rfl
  projects := Within.drift h.projects hc fun id _ hspoilt => hspoilt.project id rfl

end Contents

end Cache

open Cache Loading

/-- Coherent caches give records of the kind as the store has them, and take their texts. -/
structure RecordKind.Cached {ρ : Type} (k : RecordKind ρ) (s : Store)
    (records : List Int → List ρ) (size : Int) : Prop where
  faithful : ∀ {c : Contents}, c.Coherent s size → c.Faithful k records size
  set : ∀ {c : Contents} {id : Int} {r : ρ}, c.Coherent s size →
    stored records size id = some r → (c.set (k.cacheKey id) (k.text r)).Coherent s size

namespace Store

variable (s : Store) (size : Int)

theorem cached_versions : RecordKind.versions.Cached s s.versionRecords size where
  faithful h := h.versions
  set h hr :=
    { versions :=
        Contents.Within.set_self h.versions (s.readsBack_versionRecords _ _ (stored_mem hr)) hr
      projects :=
        Contents.Within.set_of_ne h.projects (fun _ => (RecordKind.cacheKey_ne _ _).symm) _ }

theorem cached_projects : RecordKind.projects.Cached s s.projectRecords size where
  faithful h := h.projects
  set h hr :=
    { versions := Contents.Within.set_of_ne h.versions (fun _ => RecordKind.cacheKey_ne _ _) _
      projects := Contents.Within.set_self h.projects (readsBack_project _) hr }

/-- A store that answers all queries, a cache, and a search engine that may answer anything. The
cache may drift at any time. -/
def cachedWorld : Behaviour Request Request.Reply Contents
  | .store q, c, r, c' => r = .ok (s.answer q) ∧ c.Drifts c'
  | .cache command, c, r, c' => ∃ after, c.Answers command r after ∧ after.Drifts c'
  | .engine _, c, _, c' => c.Drifts c'

end Store

end CatalogSearch
