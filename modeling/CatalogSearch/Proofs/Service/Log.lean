import CatalogSearch.Proofs.Service.Yields

/-!
# Requests of a run

`Dialogue.logging` puts each request that is made on a log and makes no difference otherwise. Of
work that asks only the store the requests are known before it is run: they are its `queries`.
-/

namespace CatalogSearch

namespace Dialogue

variable {Req : Type} {Reply : Req → Type} {α σ : Type} {h : (r : Req) → σ → Reply r × σ}

/-- The handler, which puts each request that it answers on a log. -/
def logging (h : (r : Req) → σ → Reply r × σ) (r : Req) (t : σ × List Req) :
    Reply r × (σ × List Req) :=
  ((h r t.1).1, ((h r t.1).2, t.2 ++ [r]))

/-- The log makes no difference. -/
theorem run_logging (d : Dialogue Req Reply α) (t : σ) (log : List Req) :
    (d.run (logging h) (t, log)).1 = (d.run h t).1 ∧
      (d.run (logging h) (t, log)).2.1 = (d.run h t).2 := by
  induction d generalizing t log with
  | done a => exact ⟨rfl, rfl⟩
  | ask r next ih => exact ih _ _ _

/-- The requests that are made in a run, in their order. -/
def requests (h : (r : Req) → σ → Reply r × σ) (d : Dialogue Req Reply α) (t : σ) : List Req :=
  (d.run (logging h) (t, [])).2.2

/-- The queries of work that asks only the store, if the store always answers. -/
def queries (s : Store) : Work α → List Store.Query
  | done _ => []
  | ask (.store q) next => q :: queries s (next (.ok (s.answer q)))
  | ask (.cache _) _ => []
  | ask (.engine _) _ => []

variable {s : Store} {β : Type}

theorem queries_bind {d : Work α} {f : α → Work β} {a : α} (hd : Yields s d a) :
    queries s (d.bind f) = queries s d ++ queries s (f a) := by
  induction d with
  | done a' =>
    cases hd
    rfl
  | ask r next ih =>
    cases r with
    | store q => exact congrArg (q :: ·) (ih _ hd)
    | cache c | engine c => exact hd.elim

/-- Work that asks only the store makes its queries, against any handler that answers them. -/
theorem Yields.run_logging {h : (r : Request) → σ → r.Reply × σ}
    (hs : ∀ q t, h (.store q) t = (.ok (s.answer q), t)) {d : Work α} {a : α} (hd : Yields s d a)
    (t : σ) (log : List Request) :
    d.run (logging h) (t, log) = (a, (t, log ++ (queries s d).map .store)) := by
  induction d generalizing log with
  | done a' =>
    cases hd
    rw [queries, List.map_nil, List.append_nil]
    rfl
  | ask r next ih =>
    cases r with
    | store q =>
      rw [run, logging, hs, ih _ hd, queries, List.map_cons, List.append_assoc]
      rfl
    | cache c | engine c => exact hd.elim

end Dialogue

namespace Attempt

variable {ε ε' α β σ : Type} {s : Store} {h : (r : Request) → σ → r.Reply × σ} {t u : σ}

/-- The queries of an attempt that asks only the store, if the store always answers. -/
def queries (s : Store) (a : Attempt ε α) : List Store.Query := a.run.queries s

theorem queries_pure {a : α} : queries s (pure a : Attempt ε α) = [] := rfl

theorem queries_bind {a : Attempt ε α} {f : α → Attempt ε β} {x : α} (ha : Yields s a (.ok x)) :
    queries s (a >>= f) = queries s a ++ queries s (f x) := by
  rw [Yields] at ha
  exact Dialogue.queries_bind ha

theorem queries_withError {f : ε → ε'} {a : Attempt ε α} {r : Except ε α} (ha : Yields s a r) :
    queries s (a.withError f) = queries s a := by
  rw [Yields] at ha
  exact (Dialogue.queries_bind ha).trans (List.append_nil _)

theorem Yields.run_logging (hs : ∀ q t, h (.store q) t = (.ok (s.answer q), t))
    {a : Attempt ε α} {r : Except ε α} (ha : Yields s a r) (t : σ) (log : List Request) :
    a.run.run (Dialogue.logging h) (t, log) = (r, (t, log ++ (queries s a).map .store)) := by
  rw [Yields] at ha
  exact Dialogue.Yields.run_logging hs ha t log

/-- An attempt that succeeds is gone on with. -/
theorem run_bind_ok {a : Attempt ε α} {x : α} (ha : a.run.run h t = (.ok x, u))
    (f : α → Attempt ε β) : (a >>= f).run.run h t = (f x).run.run h u := by
  rw [ExceptT.run_bind]
  exact (Dialogue.run_bind ..).trans (by rw [ha])

theorem run_withError (f : ε → ε') (a : Attempt ε α) (t : σ) :
    (a.withError f).run.run h t = ((a.run.run h t).1.mapError f, (a.run.run h t).2) :=
  Dialogue.run_bind ..

/-- An attempt that fails is not gone on with. -/
theorem run_bind_error {a : Attempt ε α} {e : ε} (ha : a.run.run h t = (.error e, u))
    (f : α → Attempt ε β) : (a >>= f).run.run h t = (.error e, u) := by
  rw [ExceptT.run_bind]
  exact (Dialogue.run_bind ..).trans (by rw [ha]; rfl)

end Attempt

end CatalogSearch
