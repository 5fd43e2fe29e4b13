import CatalogSearch.Proofs.Loading.ReadBack
import CatalogSearch.Proofs.Loading.Rules
import CatalogSearch.Proofs.Service.Interleave
import CatalogSearch.Proofs.Store.Intact
import CatalogSearch.Rehearsal.Cache

/-!
# Loads at the same time

The loads of versions and of projects done at the same time, against one store and one cache. Each
of them touches keys of its own kind only (`asks_loads_disjoint`), so their requests commute, and in
whatever order these come, both loads and the cache end as if the versions had been loaded first
(`load_of_interleaves`).
-/

namespace CatalogSearch

open Cache

/-! ### A shared cache -/

/-- What becomes of a command: it is answered, or it fails with the cache out of reach, when it may
have taken effect or not. -/
inductive Cache.Fate where
  | answered
  | failed (message : String) (effective : Bool)

/-- The entries of a cache, by their keys. -/
abbrev Cache.Entries : Type := String → Option Entry

namespace Cache.Command

/-- What a command answers. -/
def answerFrom (m : Entries) : (c : Command) → c.Answer
  | .connect _ => ()
  | .ping => ()
  | .close => ()
  | .info => []
  | .read keys => keys.map fun key => (m key).map (·.text)
  | .write _ _ _ => ()

/-- What a command makes of the entries. -/
def effect (m : Entries) : Command → Entries
  | .write key ttl text => Function.update m key (some ⟨ttl, text⟩)
  | _ => m

end Cache.Command

/-- A store that answers all queries, and a cache that keeps all entries, where each command has its
fate. -/
def Store.sharedWorld (s : Store) (fate : Command → Fate) :
    (r : Request) → Entries → r.Reply × Entries
  | .store q, m => (.ok (s.answer q), m)
  | .engine _, m => (.error (.error "no engine"), m)
  | .cache command, m =>
    match fate command with
    | .answered => (.ok (command.answerFrom m), command.effect m)
    | .failed message effective =>
      (.error (.unreachable message), if effective then command.effect m else m)

/-- The request reads or writes the key. -/
def Request.Touches (key : String) : Request → Prop
  | .cache (.read keys) => key ∈ keys
  | .cache (.write key' _ _) => key' = key
  | _ => False

variable {s : Store} {fate : Command → Fate} {m : Entries} {r r₁ r₂ : Request}

/-- A request changes no entry that it does not touch. -/
theorem sharedWorld_of_not_touches {key : String} (hr : ¬ r.Touches key) (m : Entries) :
    (s.sharedWorld fate r m).2 key = m key := by
  have heffect {command : Command} (hr : ¬ (Request.cache command).Touches key) :
      command.effect m key = m key := by
    cases command with
    | write key' ttl text =>
      apply Function.update_of_ne
      intro hkey
      exact hr hkey.symm
    | read | connect | ping | close | info => rfl
  cases r with
  | store q | engine call => rfl
  | cache command =>
    rw [Store.sharedWorld]
    cases fate command with
    | answered => exact heffect hr
    | failed message effective =>
      cases effective with
      | true => exact heffect hr
      | false => rfl

/-- The reply to a request depends on the entries that it touches, and so does what it makes of
them. -/
theorem sharedWorld_congr {m m' : Entries} (hm : ∀ key, r.Touches key → m key = m' key) :
    (s.sharedWorld fate r m).1 = (s.sharedWorld fate r m').1 ∧
      ∀ key, r.Touches key →
        (s.sharedWorld fate r m).2 key = (s.sharedWorld fate r m').2 key := by
  cases r with
  | store q | engine call => exact ⟨rfl, hm⟩
  | cache command =>
    have hanswer : command.answerFrom m = command.answerFrom m' := by
      cases command with
      | read keys =>
        apply List.map_congr_left
        intro key hkey
        rw [hm key hkey]
      | write | connect | ping | close | info => rfl
    have heffect (key : String) (hkey : (Request.cache command).Touches key) :
        command.effect m key = command.effect m' key := by
      cases command with
      | write key' ttl text =>
        obtain rfl : key' = key := hkey
        simp [Command.effect]
      | read | connect | ping | close | info => exact hm key hkey
    rw [Store.sharedWorld, Store.sharedWorld]
    cases fate command with
    | answered => exact ⟨by rw [hanswer], heffect⟩
    | failed message effective =>
      cases effective with
      | true => exact ⟨rfl, heffect⟩
      | false => exact ⟨rfl, hm⟩

/-- Requests that touch different keys commute. -/
theorem commute_of_disjoint (hdisjoint : ∀ key, r₁.Touches key → ¬ r₂.Touches key) :
    Dialogue.Commute (s.sharedWorld fate) r₁ r₂ := by
  have hleft (m : Entries) (key : String) (hkey : r₁.Touches key) :
      (s.sharedWorld fate r₂ m).2 key = m key :=
    sharedWorld_of_not_touches (hdisjoint key hkey) m
  have hright (m : Entries) (key : String) (hkey : r₂.Touches key) :
      (s.sharedWorld fate r₁ m).2 key = m key :=
    sharedWorld_of_not_touches (fun h => hdisjoint key h hkey) m
  refine ⟨fun m => (sharedWorld_congr (hleft m)).1, fun m => (sharedWorld_congr (hright m)).1, ?_⟩
  intro m
  funext key
  by_cases h₁ : r₁.Touches key
  · rw [(sharedWorld_congr (hleft m)).2 key h₁, sharedWorld_of_not_touches (hdisjoint key h₁)]
  · rw [sharedWorld_of_not_touches h₁]
    by_cases h₂ : r₂.Touches key
    · rw [(sharedWorld_congr (hright m)).2 key h₂]
    · rw [sharedWorld_of_not_touches h₂, sharedWorld_of_not_touches h₂,
        sharedWorld_of_not_touches h₁]

/-! ### What a load asks -/

namespace Hydration

variable {p : Request → Prop}

theorem asks_ask (hp : ∀ q, p (.store q)) (q : Store.Query) : Attempt.Asks p (ask q) :=
  Attempt.Asks.withError ⟨hp q, fun _ => trivial⟩

theorem asks_versions (hp : ∀ q, p (.store q)) (ids : List Int) :
    Attempt.Asks p (versions ids) := by
  rw [versions]
  split
  · exact Attempt.asks_pure
  refine (asks_ask hp _).bind fun rows => ?_
  split
  · exact Attempt.asks_pure
  refine (asks_ask hp _).bind fun loaders => (asks_ask hp _).bind fun projectTypes =>
    (asks_ask hp _).bind fun values => ?_
  split
  · exact Attempt.asks_pure
  · exact Attempt.asks_throw

theorem asks_projects (hp : ∀ q, p (.store q)) (ids : List Int) :
    Attempt.Asks p (projects ids) := by
  rw [projects]
  split
  · exact Attempt.asks_pure
  refine (asks_ask hp _).bind fun rows => ?_
  split
  · exact Attempt.asks_pure
  exact (asks_ask hp _).bind fun categories => (asks_ask hp _).bind fun versions =>
    (asks_ask hp _).bind fun gallery => (asks_ask hp _).bind fun links =>
    (asks_ask hp _).bind fun projectTypes => (asks_ask hp _).bind fun games => Attempt.asks_pure

end Hydration

/-- All keys that the request touches are those of records of the kind. -/
def RecordKind.Owns {ρ : Type} (k : RecordKind ρ) (r : Request) : Prop :=
  ∀ key, r.Touches key → ∃ id, key = k.cacheKey id

/-- The keys of the two kinds differ. -/
theorem commute_of_owns (h₁ : RecordKind.versions.Owns r₁) (h₂ : RecordKind.projects.Owns r₂) :
    Dialogue.Commute (s.sharedWorld fate) r₁ r₂ := by
  apply commute_of_disjoint
  intro key hkey₁ hkey₂
  obtain ⟨id, rfl⟩ := h₁ key hkey₁
  obtain ⟨id', hid'⟩ := h₂ _ hkey₂
  exact RecordKind.cacheKey_ne id id' hid'

namespace Loading

variable {ρ : Type} {k : RecordKind ρ} {o : LoadOptions} {p : Request → Prop}

theorem asks_readCache
    (hread : o.cached = true → ∀ ids : List Int, p (.cache (.read (ids.map k.cacheKey))))
    (ids : List Int) : Attempt.Asks p (readCache k o ids) := by
  rw [readCache]
  split
  · next hcached =>
    refine (Attempt.asks_askCache (hread hcached ids)).outcome.bind fun x => ?_
    split
    · exact Attempt.asks_pure
    · exact Attempt.asks_pure
    · exact Attempt.asks_throw
  · exact Attempt.asks_pure

theorem asks_fetch (hfetch : ∀ ids, Attempt.Asks p (k.fetch ids)) (ids : List Int) :
    Attempt.Asks p (fetch k o ids) := by
  have hbatches (chunks : List (List Int)) : Attempt.Asks p (fetchBatches k chunks) := by
    induction chunks with
    | nil => exact Attempt.asks_pure
    | cons c rest ih => exact (hfetch c).bind fun rs => ih.bind fun l => Attempt.asks_pure
  rw [fetch]
  split
  · exact Attempt.asks_throw
  · exact (hbatches _).withError.bind fun l => Attempt.asks_pure

theorem asks_writeCache (hwrite : ∀ id text, p (.cache (.write (k.cacheKey id) o.expiry text)))
    (entries : List (Int × ρ)) : Attempt.Asks p (writeCache k o.expiry entries) := by
  induction entries with
  | nil => exact Attempt.asks_pure
  | cons e rest ih =>
    refine (Attempt.asks_askCache (hwrite e.1 _)).outcome.bind fun x => ?_
    split
    · exact ih
    · exact Attempt.asks_pure
    · exact Attempt.asks_throw

/-- A load asks what fetching asks and, with a cache, what reading and writing it ask. -/
theorem asks_loadOf
    (hread : o.cached = true → ∀ ids : List Int, p (.cache (.read (ids.map k.cacheKey))))
    (hfetch : ∀ ids, Attempt.Asks p (k.fetch ids))
    (hwrite : o.cached = true → ∀ id text, p (.cache (.write (k.cacheKey id) o.expiry text)))
    (ids : List Int) : Attempt.Asks p (load k o ids) := by
  rw [load]
  split
  · exact Attempt.asks_pure
  refine (asks_readCache hread _).bind fun cached => ?_
  dsimp only
  split
  · exact Attempt.asks_pure
  refine (asks_fetch hfetch _).bind fun fetched => ?_
  split
  · next hcached => exact (asks_writeCache (hwrite hcached) _).bind fun _ => Attempt.asks_pure
  · exact Attempt.asks_pure

/-- A load asks for keys of its kind only, if fetching asks for no keys at all. -/
theorem asks_load (hfetch : ∀ ids, Attempt.Asks k.Owns (k.fetch ids)) (o : LoadOptions)
    (ids : List Int) : Attempt.Asks k.Owns (load k o ids) := by
  refine asks_loadOf (fun _ ids key hkey => ?_) hfetch (fun _ id text => ?_) ids
  · obtain ⟨id, -, rfl⟩ := List.mem_map.1 hkey
    exact ⟨id, rfl⟩
  · rintro _ rfl
    exact ⟨id, rfl⟩

theorem asks_loadVersions (o : LoadOptions) (ids : List Int) :
    Attempt.Asks RecordKind.versions.Owns (load .versions o ids) :=
  asks_load (Hydration.asks_versions fun _ => nofun) o ids

theorem asks_loadProjects (o : LoadOptions) (ids : List Int) :
    Attempt.Asks RecordKind.projects.Owns (load .projects o ids) :=
  asks_load (Hydration.asks_projects fun _ => nofun) o ids

/-- No key is touched by both loads. -/
theorem asks_loads_disjoint (o : LoadOptions) (versionIds projectIds : List Int) (key : String) :
    Attempt.Asks (fun r => ¬ r.Touches key) (load .versions o versionIds) ∨
      Attempt.Asks (fun r => ¬ r.Touches key) (load .projects o projectIds) := by
  by_cases hkey : ∃ id, key = RecordKind.versions.cacheKey id
  · right
    obtain ⟨id, rfl⟩ := hkey
    apply (asks_loadProjects o projectIds).imp
    intro r hr htouches
    obtain ⟨id', hid'⟩ := hr _ htouches
    exact RecordKind.cacheKey_ne id id' hid'
  · left
    apply (asks_loadVersions o versionIds).imp
    intro r hr htouches
    exact hkey (hr key htouches)

/-! ### Both loads -/

/-- Against a store that answers, fit records are loaded in batches that are not empty, however the
cache fares. -/
theorem exists_run_load {records : List Int → List ρ} {fit : Int → Prop}
    (h : k.Fetches s records fit) (hfit : ∀ id, fit id) (ho : 1 ≤ o.batchSize)
    (fate : Command → Fate) (ids : List Int) (m : Entries) :
    ∃ found, ((load k o ids).run.run (s.sharedWorld fate) m).1 = .ok found := by
  have hrules : Rules (Dialogue.handledBy (s.sharedWorld fate)) (fun _ => True)
      (fun _ _ => True) (fun _ => False) k o :=
    { read := by
        intro ids t u x _ hx
        refine ⟨trivial, fun _ _ _ _ _ => trivial, ?_⟩
        rintro message rfl
        rw [Dialogue.handledBy, Store.sharedWorld] at hx
        split at hx <;> cases hx
      fetch := by
        intro ids t ht
        refine ensures_fetch_answered h ?_ (fun _ _ _ => trivial) ?_ ht
        · rintro q t x u _ hx
          cases hx
          exact ⟨rfl, trivial⟩
        · intro e he
          have hsize : o.batchSize ≠ 0 := by omega
          cases he.unique ((yields_fetch h).2 ⟨hsize, fun _ id _ => hfit id, rfl⟩)
      write := by
        intro id r t u x _ _ hx
        refine ⟨trivial, ?_⟩
        rintro message rfl
        rw [Dialogue.handledBy, Store.sharedWorld] at hx
        split at hx <;> cases hx }
  have hpost := Dialogue.Ensures.run_handledBy (hrules.ensures_load (s := m) trivial ids)
  cases hrun : ((load k o ids).run.run (s.sharedWorld fate) m).1 with
  | ok found => exact ⟨found, rfl⟩
  | error e =>
    rw [hrun] at hpost
    exact hpost.2.elim

/-- A part whose failing is looked at is done first, whether or not it fails. -/
theorem run_outcome_bind {ε ε' α β σ : Type} {h : (r : Request) → σ → r.Reply × σ}
    (a : Attempt ε α) (f : Except ε α → Attempt ε' β) (t : σ) :
    (outcome a >>= f).run.run h t = (f (a.run.run h t).1).run.run h (a.run.run h t).2 := by
  rw [ExceptT.run_bind, outcome]
  change ((a.run.bind fun r => .done (Except.ok r)).bind _).run h t = _
  rw [Dialogue.run_bind, Dialogue.run_bind]
  rfl

/-- The two loads do not interfere. In whatever order their requests come, both end with the records
and leave the cache with the entries with which they do if the versions are loaded first, and no key
is touched by both of them. -/
theorem load_of_interleaves (hs : s.ValidFieldTypes) (ho : 1 ≤ o.batchSize)
    {versionIds projectIds : List Int} {m m' : Entries}
    {versions : Except LoadError (OrderedMap Int Version)}
    {projects : Except LoadError (OrderedMap Int Project)}
    (hi : Dialogue.Interleaves (s.sharedWorld fate) (load .versions o versionIds).run
      (load .projects o projectIds).run m versions projects m') :
    (∃ foundVersions foundProjects between,
      versions = .ok foundVersions ∧ projects = .ok foundProjects ∧
      (load .versions o versionIds).run.run (s.sharedWorld fate) m =
        (.ok foundVersions, between) ∧
      (load .projects o projectIds).run.run (s.sharedWorld fate) between =
        (.ok foundProjects, m') ∧
      (loadBoth o versionIds projectIds).run.run (s.sharedWorld fate) m =
        (.ok (foundVersions, foundProjects), m')) ∧
    ∀ key, Attempt.Asks (fun r => ¬ r.Touches key) (load .versions o versionIds) ∨
      Attempt.Asks (fun r => ¬ r.Touches key) (load .projects o projectIds) := by
  refine ⟨?_, asks_loads_disjoint o versionIds projectIds⟩
  obtain ⟨between, hversions, hprojects⟩ := hi.sequential (fun _ _ => commute_of_owns)
    (asks_loadVersions o versionIds) (asks_loadProjects o projectIds)
  obtain ⟨foundVersions, hv⟩ := exists_run_load s.fetches_versions
    (fun _ _ _ => hs.typed _) ho fate versionIds m
  obtain ⟨foundProjects, hp⟩ := exists_run_load s.fetches_projects
    (fun _ => trivial) ho fate projectIds between
  rw [hversions] at hv
  rw [hprojects] at hp
  cases hv
  cases hp
  refine ⟨foundVersions, foundProjects, between, rfl, rfl, hversions, hprojects, ?_⟩
  rw [loadBoth, run_outcome_bind, hversions, run_outcome_bind, hprojects]
  rfl

/-- The loads take turns, with a text in the cache that is no record, a read that fails and a write
that fails although it has taken effect. -/
theorem load_takingTurns :
    let fate : Command → Fate
      | .read ("projects:101" :: _) => .failed "timed out" false
      | .write "versions:9" _ _ => .failed "timed out" true
      | _ => .answered
    let m : Entries := fun key => if key = "versions:7" then some ⟨60, "[1,"⟩ else none
    let o : LoadOptions := ⟨true, 1, 60⟩
    ∃ (versions : Except LoadError (OrderedMap Int Version))
      (projects : Except LoadError (OrderedMap Int Project)) (m' : Entries),
      Store.sample.ValidFieldTypes ∧ 1 ≤ o.batchSize ∧
      Dialogue.Interleaves (Store.sample.sharedWorld fate) (load .versions o [9, 7]).run
        (load .projects o [101, 100]).run m versions projects m' ∧
      ∃ foundVersions foundProjects between,
        versions = .ok foundVersions ∧ projects = .ok foundProjects ∧
        (load .versions o [9, 7]).run.run (Store.sample.sharedWorld fate) m =
          (.ok foundVersions, between) ∧
        (load .projects o [101, 100]).run.run (Store.sample.sharedWorld fate) between =
          (.ok foundProjects, m') ∧
        (loadBoth o [9, 7] [101, 100]).run.run (Store.sample.sharedWorld fate) m =
          (.ok (foundVersions, foundProjects), m') := by
  intro fate m o
  have htypes : Store.sample.ValidFieldTypes := by decide +kernel
  have hi := Dialogue.interleaves_takeTurns (h := Store.sample.sharedWorld fate)
    [true, false, false, true, true, false] (load .versions o [9, 7]).run
    (load .projects o [101, 100]).run m
  exact ⟨_, _, _, htypes, by decide, hi, (load_of_interleaves htypes (by decide) hi).1⟩

end Loading

end CatalogSearch
