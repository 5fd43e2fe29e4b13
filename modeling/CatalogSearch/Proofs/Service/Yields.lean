import CatalogSearch.Proofs.Service.Ensures

/-!
# Work that asks only the store

Against a store that answers all queries, what such work comes to is settled, whatever else there is
(`Yields.ensures`).
-/

namespace CatalogSearch

variable {ε ε' α β σ : Type} {s : Store}

/-- The work asks only the store, and comes to the value if the store always answers. -/
def Dialogue.Yields (s : Store) : Work α → α → Prop
  | done a, b => a = b
  | ask (.store q) next, b => Yields s (next (.ok (s.answer q))) b
  | ask (.cache _) _, _ => False
  | ask (.engine _) _, _ => False

/-- What the work comes to if the store always answers and it asks nothing else. -/
def Dialogue.settled? (s : Store) : Work α → Option α
  | done a => some a
  | ask (.store q) next => settled? s (next (.ok (s.answer q)))
  | ask (.cache _) _ => none
  | ask (.engine _) _ => none

namespace Dialogue

theorem settled?_eq_some {d : Work α} {a : α} : d.settled? s = some a ↔ Yields s d a := by
  induction d with
  | done b => exact ⟨Option.some.inj, congrArg some⟩
  | ask r next ih =>
    cases r with
    | store q => exact ih _
    | cache c | engine c => exact ⟨nofun, False.elim⟩

theorem yields_bind {d : Work α} {f : α → Work β} {b : β} :
    Yields s (d.bind f) b ↔ ∃ a, Yields s d a ∧ Yields s (f a) b := by
  induction d with
  | done a => exact ⟨fun h => ⟨a, rfl, h⟩, fun ⟨_, ha, h⟩ => ha ▸ h⟩
  | ask r next ih =>
    cases r with
    | store q => exact ih _
    | cache c | engine c => exact ⟨False.elim, fun ⟨_, h, _⟩ => h⟩

theorem Yields.unique {d : Work α} {a b : α} (ha : Yields s d a) (hb : Yields s d b) : a = b := by
  induction d with
  | done a' => exact ha.symm.trans hb
  | ask r next ih =>
    cases r with
    | store q => exact ih _ ha hb
    | cache c | engine c => exact ha.elim

/-- Work that asks only the store comes to its value when it is done. -/
theorem Yields.run_eq {handler : (r : Request) → σ → r.Reply × σ}
    (hs : ∀ q t, (handler (.store q) t).1 = .ok (s.answer q)) {d : Work α} {a : α}
    (h : Yields s d a) (t : σ) : (d.run handler t).1 = a := by
  induction d generalizing t with
  | done a' => exact h
  | ask r next ih =>
    cases r with
    | store q =>
      rw [Dialogue.run, hs]
      exact ih _ h _
    | cache c | engine c => exact h.elim

/-- The requests to the store are answered from it and keep the condition. -/
def AnswersFrom (s : Store) (B : Behaviour Request Request.Reply σ) (J : σ → Prop) : Prop :=
  ∀ q t x u, J t → B (.store q) t x u → x = .ok (s.answer q) ∧ J u

theorem Yields.ensures {B : Behaviour Request Request.Reply σ} {I J : σ → Prop}
    {post : α → σ → Prop} {d : Work α} {a : α} {t : σ} (h : Yields s d a)
    (hB : AnswersFrom s B J) (hJ : J t) (hI : ∀ u, J u → I u) (hpost : ∀ u, J u → post a u) :
    Ensures B I post d t := by
  induction d generalizing t with
  | done a' => cases h; exact hpost t hJ
  | ask r next ih =>
    cases r with
    | store q =>
      intro x u hx
      obtain ⟨rfl, hu⟩ := hB q t x u hJ hx
      exact ⟨hI u hu, ih _ h hu⟩
    | cache c | engine c => exact h.elim

end Dialogue

namespace Attempt

/-- The attempt asks only the store, and comes to the result if the store always answers. -/
def Yields (s : Store) (a : Attempt ε α) (r : Except ε α) : Prop := Dialogue.Yields s a.run r

theorem exists_yields_of_settled? {a : Attempt ε α} {f : α → β} {b : β}
    (h : ((a.run.settled? s).bind fun r => r.toOption.map f) = some b) :
    ∃ x, Yields s a (.ok x) ∧ f x = b := by
  obtain ⟨r, hr, hx⟩ := Option.bind_eq_some_iff.1 h
  cases r with
  | error e => cases hx
  | ok x => exact ⟨x, Dialogue.settled?_eq_some.1 hr, Option.some.inj hx⟩

theorem yields_pure {a b : α} : Yields s (pure a : Attempt ε α) (.ok b) ↔ a = b :=
  Except.ok.injEq .. ▸ Iff.rfl

theorem not_yields_throw {e : ε} {a : α} : ¬ Yields s (throw e : Attempt ε α) (.ok a) := nofun

theorem yields_mk_done {r r' : Except ε α} : Yields s (ExceptT.mk (.done r)) r' ↔ r = r' := .rfl

theorem yields_askStore {q : Store.Query} {a : q.Answer} :
    Yields s (askStore q) (.ok a) ↔ s.answer q = a :=
  Except.ok.injEq .. ▸ Iff.rfl

theorem yields_bind {a : Attempt ε α} {f : α → Attempt ε β} {y : β} :
    Yields s (a >>= f) (.ok y) ↔ ∃ x, Yields s a (.ok x) ∧ Yields s (f x) (.ok y) := by
  refine Dialogue.yields_bind.trans ⟨fun h => ?_, fun ⟨x, hx, hf⟩ => ⟨.ok x, hx, hf⟩⟩
  obtain ⟨x | x, hx, hf⟩ := h
  · cases hf
  · exact ⟨x, hx, hf⟩

theorem yields_withError {f : ε → ε'} {a : Attempt ε α} {r : Except ε' α} :
    Yields s (a.withError f) r ↔ ∃ r', Yields s a r' ∧ r'.mapError f = r :=
  Dialogue.yields_bind

theorem yields_withError_ok {f : ε → ε'} {a : Attempt ε α} {x : α} :
    Yields s (a.withError f) (.ok x) ↔ Yields s a (.ok x) := by
  refine yields_withError.trans ⟨fun ⟨r, hr, hx⟩ => ?_, fun h => ⟨_, h, rfl⟩⟩
  cases r with
  | error e => cases hx
  | ok y => cases hx; exact hr

theorem yields_outcome {a : Attempt ε α} {r : Except ε α} :
    Yields s (outcome a : Attempt ε' (Except ε α)) (.ok r) ↔ Yields s a r := by
  refine Dialogue.yields_bind.trans ⟨fun ⟨r', hr, hx⟩ => ?_, fun h => ⟨r, h, rfl⟩⟩
  cases hx
  exact hr

theorem Yields.unique {a : Attempt ε α} {r r' : Except ε α} (h : Yields s a r)
    (h' : Yields s a r') : r = r' :=
  Dialogue.Yields.unique h h'

theorem Yields.run_eq {handler : (r : Request) → σ → r.Reply × σ}
    (hs : ∀ q t, (handler (.store q) t).1 = .ok (s.answer q)) {a : Attempt ε α} {r : Except ε α}
    (h : Yields s a r) (t : σ) : (a.run.run handler t).1 = r :=
  Dialogue.Yields.run_eq hs h t

theorem Yields.ensures {B : Behaviour Request Request.Reply σ} {I J : σ → Prop}
    {ok : α → σ → Prop} {err : ε → σ → Prop} {a : Attempt ε α} {r : Except ε α} {t : σ}
    (h : Yields s a r) (hB : Dialogue.AnswersFrom s B J) (hJ : J t) (hI : ∀ u, J u → I u)
    (hpost : ∀ u, J u → onResult ok err r u) : Ensures B I ok err a t :=
  Dialogue.Yields.ensures h hB hJ hI hpost

/-- The attempt asks only the store. -/
def Settled (s : Store) (a : Attempt ε α) : Prop := ∃ r, Yields s a r

theorem settled_pure {a : α} : Settled s (pure a : Attempt ε α) := ⟨.ok a, rfl⟩

theorem settled_throw {e : ε} : Settled s (throw e : Attempt ε α) := ⟨.error e, rfl⟩

theorem settled_mk_done {r : Except ε α} : Settled s (ExceptT.mk (.done r)) := ⟨r, rfl⟩

theorem settled_askStore {q : Store.Query} : Settled s (askStore q) := ⟨_, rfl⟩

theorem Settled.bind {a : Attempt ε α} {f : α → Attempt ε β} (ha : Settled s a)
    (hf : ∀ x, Settled s (f x)) : Settled s (a >>= f) := by
  obtain ⟨x | x, hx⟩ := ha
  · exact ⟨.error x, Dialogue.yields_bind.2 ⟨_, hx, rfl⟩⟩
  · obtain ⟨r, hr⟩ := hf x
    exact ⟨r, Dialogue.yields_bind.2 ⟨_, hx, hr⟩⟩

theorem Settled.withError {f : ε → ε'} {a : Attempt ε α} (ha : Settled s a) :
    Settled s (a.withError f) := by
  obtain ⟨r, hr⟩ := ha
  exact ⟨_, yields_withError.2 ⟨r, hr, rfl⟩⟩

theorem Settled.outcome {a : Attempt ε α} (ha : Settled s a) :
    Settled s (CatalogSearch.outcome a : Attempt ε' (Except ε α)) := by
  obtain ⟨r, hr⟩ := ha
  exact ⟨_, yields_outcome.2 hr⟩

/-- All errors that the attempt comes to satisfy `E`, if the store always answers. -/
def Errs (s : Store) (E : ε → Prop) (a : Attempt ε α) : Prop := ∀ e, Yields s a (.error e) → E e

variable {E : ε → Prop}

theorem errs_pure {a : α} : Errs s E (pure a : Attempt ε α) := fun _ h => nomatch h

theorem errs_throw {e : ε} (he : E e) : Errs s E (throw e : Attempt ε α) :=
  fun _ h => Except.error.inj h ▸ he

theorem errs_askStore {E : Store.Failure → Prop} {q : Store.Query} : Errs s E (askStore q) :=
  fun _ h => nomatch h

theorem Errs.bind {a : Attempt ε α} {f : α → Attempt ε β} (ha : Errs s E a)
    (hf : ∀ x, Errs s E (f x)) : Errs s E (a >>= f) := by
  intro e he
  obtain ⟨x | x, hx, he⟩ := Dialogue.yields_bind.1 he
  · exact Except.error.inj he ▸ ha x hx
  · exact hf x e he

theorem Errs.withError {E' : ε' → Prop} {f : ε → ε'} {a : Attempt ε α} (ha : Errs s E a)
    (hf : ∀ e, E e → E' (f e)) : Errs s E' (a.withError f) := by
  intro e he
  obtain ⟨r, hr, hre⟩ := yields_withError.1 he
  cases r with
  | ok x => cases hre
  | error e' => exact Except.error.inj hre ▸ hf e' (ha e' hr)

-- The lemmas above are all there is to know of it: nothing should look into the work to compare two
-- such propositions.
attribute [irreducible] Yields

end Attempt

end CatalogSearch
