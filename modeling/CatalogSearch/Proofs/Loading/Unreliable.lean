import CatalogSearch.Proofs.Loading.Aborts

/-!
# Loading from a store that may fail

A store that may fail at any query. Work on records of a kind then comes to what it comes to if no
query can fail, unless one failed (`ensures_comes`); two pieces of work at the same time do so in
any order, since they write no keys of each other's (`Interleaves.exists_comes`).
-/

namespace CatalogSearch

open Cache

/-- A store that answers or fails at each query, and a cache that keeps all entries, where each
command has its fate. -/
def Store.unreliableWorld (s : Store) (fate : Command → Fate) :
    Behaviour Request Request.Reply Entries
  | .store q, m, x, m' => (x = .ok (s.answer q) ∨ ∃ f, x = .error f) ∧ m' = m
  | .cache c, m, x, m' => (x, m') = s.sharedWorld fate (.cache c) m
  | .engine _, m, _, m' => m' = m

/-- The behaviour, where each exchange is put on a record. -/
def Dialogue.keeping {σ : Type} (B : Behaviour Request Request.Reply σ) :
    Behaviour Request Request.Reply (σ × List Exchange) :=
  fun r t x t' => B r t.1 x t'.1 ∧ t'.2 = t.2 ++ [⟨r, x⟩]

/-- Such a world, where the query that comes after `n` others fails. -/
def Store.failingWorld (s : Store) (fate : Command → Fate) (n : Nat) (f : Store.Failure)
    (r : Request) (t : Entries × List Exchange) : r.Reply × (Entries × List Exchange) :=
  match r with
  | .store q =>
    let x : Except Store.Failure q.Answer :=
      if t.2.countP (·.1 matches .store _) = n then .error f else .ok (s.answer q)
    (x, t.1, t.2 ++ [⟨.store q, x⟩])
  | r => ((s.sharedWorld fate r t.1).1, (s.sharedWorld fate r t.1).2,
    t.2 ++ [⟨r, (s.sharedWorld fate r t.1).1⟩])

variable {s : Store} {fate : Command → Fate} {m : Entries} {α β : Type}

theorem failingWorld_unreliable (s : Store) (fate : Command → Fate) (n : Nat) (f : Store.Failure)
    (r : Request) (t : Entries × List Exchange) : Dialogue.keeping (s.unreliableWorld fate) r t
      (s.failingWorld fate n f r t).1 (s.failingWorld fate n f r t).2 := by
  cases r with
  | store q =>
    refine ⟨⟨?_, rfl⟩, rfl⟩
    rw [Store.failingWorld]
    dsimp only
    split
    · exact .inr ⟨f, rfl⟩
    · exact .inl rfl
  | cache c => exact ⟨rfl, rfl⟩
  | engine call => exact ⟨rfl, rfl⟩

theorem sharedWorld_of_not_writes {c : Command} {key : String}
    (h : ¬ (Request.cache c).Writes key) : (s.sharedWorld fate (.cache c) m).2 key = m key := by
  cases c with
  | write key' ttl text =>
    exact sharedWorld_of_not_touches (r := .cache (.write key' ttl text)) h m
  | read | connect | ping | close | info =>
    rw [Store.sharedWorld]
    split
    · rfl
    · split <;> rfl

/-- A reply leaves what is not written as it is, and if no query failed, it is the one that comes if
none can fail. -/
theorem step_unreliableWorld {r : Request} {x : r.Reply} {m' : Entries}
    (h : s.unreliableWorld fate r m x m') : (∀ key, ¬ r.Writes key → m' key = m key) ∧
      (Exchange.fails ⟨r, x⟩ = false → ¬ r.IsCall → s.sharedWorld fate r m = (x, m')) := by
  cases r with
  | store q =>
    obtain ⟨hx, rfl⟩ := h
    refine ⟨fun _ _ => rfl, fun hanswered _ => ?_⟩
    rcases hx with rfl | ⟨f, rfl⟩
    · rfl
    · cases hanswered
  | cache c =>
    refine ⟨fun key hkey => ?_, fun _ _ => Eq.symm h⟩
    rw [(Prod.mk.inj h).2]
    exact sharedWorld_of_not_writes (s := s) hkey
  | engine call =>
    cases h
    exact ⟨fun _ _ => rfl, fun _ hcall => absurd trivial hcall⟩

/-- What is not written is kept. -/
theorem Dialogue.ensures_kept (s : Store) (fate : Command → Fate) (d : Work α) (m : Entries)
    (t : List Exchange) :
    Ensures (keeping (s.unreliableWorld fate)) (fun _ => True)
      (fun _ t' => ∃ record, t'.2 = t ++ record ∧
        ∀ key, (∀ x ∈ record, ¬ x.1.Writes key) → t'.1 key = m key) d (m, t) := by
  induction d generalizing m t with
  | done a => exact ⟨[], (List.append_nil t).symm, fun _ _ => rfl⟩
  | ask r next ih =>
    rintro x ⟨m₁, _⟩ ⟨hx, rfl⟩
    refine ⟨trivial, (ih x m₁ _).mono fun a t' ht' => ?_⟩
    obtain ⟨record, ht', hkept⟩ := ht'
    refine ⟨⟨r, x⟩ :: record, ht'.trans (List.append_assoc ..), fun key hkey => ?_⟩
    obtain ⟨hr, hrecord⟩ := List.forall_mem_cons.1 hkey
    exact (hkept key hrecord).trans ((step_unreliableWorld hx).1 key hr)

/-- A request for records of a kind gets the same reply, and has the same effect on what there is of
them, whatever else is in the cache. -/
theorem RecordKind.Owns.sharedWorld_congr {ρ : Type} {k : RecordKind ρ} {r : Request}
    (hr : k.Owns r) (fate : Command → Fate) {m m' : Entries}
    (hm : ∀ id, m (k.cacheKey id) = m' (k.cacheKey id)) :
    (s.sharedWorld fate r m).1 = (s.sharedWorld fate r m').1 ∧
      ∀ id, (s.sharedWorld fate r m).2 (k.cacheKey id) =
        (s.sharedWorld fate r m').2 (k.cacheKey id) := by
  have hcongr : (s.sharedWorld fate r m).1 = (s.sharedWorld fate r m').1 ∧ ∀ key,
      r.Touches key → (s.sharedWorld fate r m).2 key = (s.sharedWorld fate r m').2 key := by
    apply CatalogSearch.sharedWorld_congr
    intro key hkey
    obtain ⟨id, rfl⟩ := hr key hkey
    exact hm id
  refine ⟨hcongr.1, fun id => ?_⟩
  by_cases hid : r.Touches (k.cacheKey id)
  · exact hcongr.2 _ hid
  · rw [sharedWorld_of_not_touches hid, sharedWorld_of_not_touches hid, hm]

theorem RecordKind.Owns.not_touches {ρ ρ' : Type} {k : RecordKind ρ} {k' : RecordKind ρ'}
    {r : Request} (hr : k.Owns r) (hkeys : ∀ id id', k.cacheKey id ≠ k'.cacheKey id') (id : Int) :
    ¬ r.Touches (k'.cacheKey id) := by
  intro htouches
  obtain ⟨id', hid'⟩ := hr _ htouches
  exact hkeys id' id hid'.symm

/-- What work comes to depends on the entries under the keys that it owns. -/
theorem Dialogue.run_congr {ρ : Type} {k : RecordKind ρ} {d : Work α} (hd : Asks k.Owns d)
    {m m' : Entries} (hm : ∀ id, m (k.cacheKey id) = m' (k.cacheKey id)) :
    (d.run (s.sharedWorld fate) m).1 = (d.run (s.sharedWorld fate) m').1 := by
  induction d generalizing m m' with
  | done a => rfl
  | ask r next ih =>
    obtain ⟨hreply, hkeys⟩ := hd.1.sharedWorld_congr (s := s) fate hm
    rw [run, run, hreply]
    exact ih _ (hd.2 _) hkeys

/-- Work leaves the entries under keys that it does not touch as they are. -/
theorem Dialogue.run_of_not_touches {d : Work α} {key : String}
    (hd : Asks (fun r => ¬ r.Touches key) d) (m : Entries) :
    (d.run (s.sharedWorld fate) m).2 key = m key := by
  induction d generalizing m with
  | done a => rfl
  | ask r next ih => exact (ih _ (hd.2 _) _).trans (sharedWorld_of_not_touches hd.1 m)

/-- What work on records of a kind comes to, from entries of the cache: what its record allows, and,
if no query failed, what it comes to if none can fail. -/
structure Dialogue.Comes {ρ : Type} (s : Store) (fate : Command → Fate) (k : RecordKind ρ)
    (d : Work α) (m : Entries) (a : α) (record : List Exchange) : Prop where
  reaches : ∀ t, Reaches recorded d t (.done a) (t ++ record)
  run_eq : Answered record → (∀ x ∈ record, ¬ x.1.IsCall) → ∀ m',
    (∀ id, m' (k.cacheKey id) = m (k.cacheKey id)) → (d.run (s.sharedWorld fate) m').1 = a

namespace Dialogue

variable {ρ ρ' : Type} {k : RecordKind ρ} {k' : RecordKind ρ'}

theorem comes_done (a : α) : Comes s fate k (.done a) m a [] where
  reaches u := by
    rw [List.append_nil]
    exact .here
  run_eq _ _ _ _ := rfl

theorem Comes.ask {r : Request} {next : r.Reply → Work α} {x : r.Reply} {m' : Entries} {a : α}
    {record : List Exchange} (h : Comes s fate k (next x) m' a record) (hr : k.Owns r)
    (hx : s.unreliableWorld fate r m x m') :
    Comes s fate k (.ask r next) m a (⟨r, x⟩ :: record) where
  reaches u := by
    have hrest := h.reaches (u ++ [⟨r, x⟩])
    rw [List.append_assoc] at hrest
    exact .reply (x := x) rfl hrest
  run_eq hanswered hcalls m₀ hm₀ := by
    obtain ⟨hfails, hanswered⟩ := List.forall_mem_cons.1 hanswered
    obtain ⟨hcall, hcalls⟩ := List.forall_mem_cons.1 hcalls
    have hstep := (step_unreliableWorld hx).2 hfails hcall
    obtain ⟨hreply, hkeys⟩ := hr.sharedWorld_congr (s := s) fate hm₀
    rw [hstep] at hreply hkeys
    rw [run, hreply]
    exact h.run_eq hanswered hcalls _ hkeys

theorem Comes.congr {d : Work α} {m' : Entries} {a : α} {record : List Exchange}
    (h : Comes s fate k d m' a record) (hm : ∀ id, m' (k.cacheKey id) = m (k.cacheKey id)) :
    Comes s fate k d m a record where
  reaches := h.reaches
  run_eq hanswered hcalls m₀ hm₀ :=
    h.run_eq hanswered hcalls m₀ fun id => (hm₀ id).trans (hm id).symm

theorem ensures_comes {d : Work α} (hd : Asks k.Owns d) (m : Entries) (t : List Exchange) :
    Ensures (keeping (s.unreliableWorld fate)) (fun _ => True)
      (fun a t' => ∃ record, t'.2 = t ++ record ∧ Comes s fate k d m a record) d (m, t) := by
  induction d generalizing m t with
  | done a => exact ⟨[], (List.append_nil t).symm, comes_done a⟩
  | ask r next ih =>
    rintro x ⟨m₁, _⟩ ⟨hx, rfl⟩
    refine ⟨trivial, (ih x (hd.2 x) m₁ _).mono fun a t' ht' => ?_⟩
    obtain ⟨record, ht', hcomes⟩ := ht'
    exact ⟨⟨r, x⟩ :: record, ht'.trans (List.append_assoc ..), hcomes.ask hd.1 hx⟩

/-- Of two pieces of work on records of different kinds that are done at the same time, each has a
record of its own, and the record of both has the exchanges of the two. -/
theorem Interleaves.exists_comes {τ : Type} {handler : (r : Request) → τ → r.Reply × τ}
    {view : τ → Entries × List Exchange}
    (hB : ∀ r t, keeping (s.unreliableWorld fate) r (view t) (handler r t).1
      (view (handler r t).2))
    (hkeys : ∀ id id', k.cacheKey id ≠ k'.cacheKey id') {d₁ : Work α} {d₂ : Work β} {t t' : τ}
    {a : α} {b : β} (hi : Interleaves handler d₁ d₂ t a b t') (h₁ : Asks k.Owns d₁)
    (h₂ : Asks k'.Owns d₂) :
    ∃ l₁ l₂ l, (view t').2 = (view t).2 ++ l ∧ (∀ x, x ∈ l ↔ x ∈ l₁ ∨ x ∈ l₂) ∧
      (∀ key, (∀ x ∈ l, ¬ x.1.Writes key) → (view t').1 key = (view t).1 key) ∧
      Comes s fate k d₁ (view t).1 a l₁ ∧ Comes s fate k' d₂ (view t).1 b l₂ := by
  induction hi with
  | done a b t =>
    exact ⟨[], [], [], (List.append_nil _).symm, by simp, fun _ _ => rfl, comes_done a, comes_done b⟩
  | @left r next d t t' a b _ ih =>
    obtain ⟨l₁, l₂, l, ht', hl, hkept, hcomes₁, hcomes₂⟩ := ih (h₁.2 _) h₂
    obtain ⟨hx, hrecord⟩ := hB r t
    let e : Exchange := ⟨r, (handler r t).1⟩
    refine ⟨e :: l₁, l₂, e :: l, ?_, fun x => ?_, fun key hkey => ?_, hcomes₁.ask h₁.1 hx,
      hcomes₂.congr fun id => ?_⟩
    · rw [ht', hrecord, List.append_assoc]
      rfl
    · rw [List.mem_cons, List.mem_cons, hl, or_assoc]
    · obtain ⟨hr, hrest⟩ := List.forall_mem_cons.1 hkey
      exact (hkept key hrest).trans ((step_unreliableWorld hx).1 key hr)
    · exact (step_unreliableWorld hx).1 _ fun hwrites =>
        h₁.1.not_touches hkeys id (touches_of_writes hwrites)
  | @right r d next t t' a b _ ih =>
    obtain ⟨l₁, l₂, l, ht', hl, hkept, hcomes₁, hcomes₂⟩ := ih h₁ (h₂.2 _)
    obtain ⟨hx, hrecord⟩ := hB r t
    let e : Exchange := ⟨r, (handler r t).1⟩
    refine ⟨l₁, e :: l₂, e :: l, ?_, fun x => ?_, fun key hkey => ?_,
      hcomes₁.congr fun id => ?_, hcomes₂.ask h₂.1 hx⟩
    · rw [ht', hrecord, List.append_assoc]
      rfl
    · rw [List.mem_cons, List.mem_cons, hl, or_left_comm]
    · obtain ⟨hr, hrest⟩ := List.forall_mem_cons.1 hkey
      exact (hkept key hrest).trans ((step_unreliableWorld hx).1 key hr)
    · exact (step_unreliableWorld hx).1 _ fun hwrites =>
        h₂.1.not_touches (fun id id' h => hkeys id' id h.symm) id (touches_of_writes hwrites)

end Dialogue

end CatalogSearch
