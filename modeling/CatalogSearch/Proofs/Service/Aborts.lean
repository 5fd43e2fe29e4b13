import CatalogSearch.Proofs.Service.Asks
import CatalogSearch.Proofs.Service.Exchanges

/-!
# Work that a failed query cuts off

`Aborts` says of work that the first query that the store does not answer ends it, and that it has
written nothing to the cache until its last query. On the record of such work there is then either
no failed query or nothing after it, and no write before it (`Aborts.recorded`).
-/

namespace CatalogSearch

/-! ### Requests and records -/

/-- The request is a query to the store. -/
def Request.IsQuery : Request → Prop
  | .store _ => True
  | _ => False

/-- The request is a command to the cache. -/
def Request.IsCommand : Request → Prop
  | .cache _ => True
  | _ => False

/-- The request is a call to the search engine. -/
def Request.IsCall : Request → Prop
  | .engine _ => True
  | _ => False

/-- The request writes under the key. -/
def Request.Writes (key : String) : Request → Prop
  | .cache (.write key' _ _) => key' = key
  | _ => False

/-- The request writes nothing. -/
def Request.Spares (r : Request) : Prop := ∀ key, ¬ r.Writes key

/-- The exchange is a query that the store did not answer. -/
def Exchange.fails : Exchange → Bool
  | ⟨.store _, .error _⟩ => true
  | _ => false

theorem Exchange.not_fails_of_not_isQuery {x : Exchange} (h : ¬ x.1.IsQuery) : x.fails = false := by
  obtain ⟨_ | _ | _, _⟩ := x
  · exact absurd trivial h
  · rfl
  · rfl

/-- The store answered all queries on the record. -/
def Answered (record : List Exchange) : Prop := ∀ x ∈ record, x.fails = false

/-- The record ends with a query that the store did not answer, and there is neither another one nor
a write on it. -/
structure CutOff (q : Store.Query) (f : Store.Failure) (record : List Exchange) : Prop where
  last : ∃ before, record = before ++ [⟨.store q, .error f⟩] ∧ Answered before
  spares : ∀ x ∈ record, x.1.Spares

theorem CutOff.single (q : Store.Query) (f : Store.Failure) : CutOff q f [⟨.store q, .error f⟩] where
  last := ⟨[], rfl, List.forall_mem_nil _⟩
  spares := List.forall_mem_singleton.2 fun _ => id

theorem CutOff.cons {q : Store.Query} {f : Store.Failure} {record : List Exchange} {x : Exchange}
    (h : CutOff q f record) (hx : x.fails = false) (hspares : x.1.Spares) :
    CutOff q f (x :: record) where
  last := by
    obtain ⟨before, rfl, hbefore⟩ := h.last
    exact ⟨x :: before, rfl, List.forall_mem_cons.2 ⟨hx, hbefore⟩⟩
  spares := List.forall_mem_cons.2 ⟨hspares, h.spares⟩

theorem CutOff.mem {q : Store.Query} {f : Store.Failure} {record : List Exchange}
    (h : CutOff q f record) : ⟨.store q, .error f⟩ ∈ record := by
  obtain ⟨before, rfl, -⟩ := h.last
  exact List.mem_append_right before List.mem_cons_self

namespace Dialogue

variable {α β : Type} {p : Store.Query → Prop} {bad : Store.Failure → α → Prop} {d : Work α}

/-- The work asks the store only queries that satisfy `p`, and a query that fails ends it with a
value that is `bad`; after a write it asks no more queries. -/
def Aborts (p : Store.Query → Prop) (bad : Store.Failure → α → Prop) : Work α → Prop
  | done _ => True
  | ask (.store q) next => p q ∧ (∀ a, Aborts p bad (next (.ok a))) ∧
      ∀ f, ∃ b, next (.error f) = done b ∧ bad f b
  | ask (.cache c) next => ∀ x, Aborts p bad (next x) ∧
      ((Request.cache c).Spares ∨ Asks (fun r => ¬ r.IsQuery) (next x))
  | ask (.engine _) _ => False

theorem aborts_of_asks (h : Asks Request.IsCommand d) : Aborts p bad d := by
  induction d with
  | done a => trivial
  | ask r next ih =>
    cases r with
    | store q | engine c => exact h.1.elim
    | cache c =>
      refine fun x => ⟨ih x (h.2 x), .inr ((h.2 x).imp fun r hr => ?_)⟩
      cases r with
      | cache c => exact id
      | store q | engine c => exact hr.elim

theorem Aborts.bind {bad' : Store.Failure → β → Prop} {f : α → Work β} (hd : Aborts p bad d)
    (hspares : Asks Request.Spares d) (hf : ∀ a, Aborts p bad' (f a))
    (hbad : ∀ failure b, bad failure b → ∃ b', f b = done b' ∧ bad' failure b') :
    Aborts p bad' (d.bind f) := by
  induction d with
  | done a => exact hf a
  | ask r next ih =>
    cases r with
    | store q =>
      obtain ⟨hq, hok, hfail⟩ := hd
      refine ⟨hq, fun a => ih _ (hok a) (hspares.2 _), fun failure => ?_⟩
      obtain ⟨b, hb, hbad'⟩ := hfail failure
      obtain ⟨b', hb', hbad''⟩ := hbad failure b hbad'
      exact ⟨b', (congrArg (Dialogue.bind · f) hb).trans hb', hbad''⟩
    | cache c => exact fun x => ⟨ih x (hd x).1 (hspares.2 x), .inl hspares.1⟩
    | engine c => exact hd.elim

/-- The exchanges of work have requests that it can make. -/
theorem Asks.recorded {P : Request → Prop} (hd : Asks P d) (t : List Exchange) :
    Ensures recorded (fun _ => True) (fun _ t' => ∃ l, t' = t ++ l ∧ ∀ x ∈ l, P x.1) d t := by
  induction d generalizing t with
  | done a => exact ⟨[], (List.append_nil t).symm, List.forall_mem_nil _⟩
  | ask r next ih =>
    rintro x _ rfl
    refine ⟨trivial, (ih x (hd.2 x) _).mono fun a t' ht' => ?_⟩
    obtain ⟨l, rfl, hl⟩ := ht'
    exact ⟨⟨r, x⟩ :: l, List.append_assoc .., List.forall_mem_cons.2 ⟨hd.1, hl⟩⟩

/-- The record of work that a failed query cuts off. -/
structure AbortRecord (p : Store.Query → Prop) (bad : Store.Failure → α → Prop) (a : α)
    (record : List Exchange) : Prop where
  queries : ∀ q x, ⟨.store q, x⟩ ∈ record → p q
  silent : ∀ x ∈ record, ¬ x.1.IsCall
  ends : Answered record ∨ ∃ q f, bad f a ∧ CutOff q f record

theorem AbortRecord.cons {a : α} {record : List Exchange} {x : Exchange}
    (h : AbortRecord p bad a record) (hq : ∀ q y, ⟨.store q, y⟩ = x → p q) (hcall : ¬ x.1.IsCall)
    (hx : x.fails = false) (hspares : x.1.Spares ∨ Answered record) :
    AbortRecord p bad a (x :: record) where
  queries q y hy := (List.mem_cons.1 hy).elim (hq q y) (h.queries q y)
  silent := List.forall_mem_cons.2 ⟨hcall, h.silent⟩
  ends := by
    rcases h.ends with hanswered | ⟨q, f, hbad, hcut⟩
    · exact .inl (List.forall_mem_cons.2 ⟨hx, hanswered⟩)
    rcases hspares with hspares | hanswered
    · exact .inr ⟨q, f, hbad, hcut.cons hx hspares⟩
    · exact .inl (List.forall_mem_cons.2 ⟨hx, hanswered⟩)

theorem Aborts.recorded (hd : Aborts p bad d) (t : List Exchange) :
    Ensures recorded (fun _ => True) (fun a t' => ∃ l, t' = t ++ l ∧ AbortRecord p bad a l) d t := by
  induction d generalizing t with
  | done a => exact ⟨[], (List.append_nil t).symm, nofun, nofun, .inl (List.forall_mem_nil _)⟩
  | ask r next ih =>
    rintro x _ rfl
    refine ⟨trivial, ?_⟩
    cases r with
    | store q =>
      obtain ⟨hq, hok, hfail⟩ := hd
      cases x with
      | ok answer =>
        refine (ih _ (hok answer) _).mono fun a t' ht' => ?_
        obtain ⟨l, rfl, hl⟩ := ht'
        refine ⟨_ :: l, List.append_assoc .., hl.cons ?_ id rfl (.inl fun _ => id)⟩
        rintro q' y h
        cases h
        exact hq
      | error f =>
        obtain ⟨b, hb, hbad⟩ := hfail f
        rw [hb]
        refine ⟨[_], rfl, ?_, List.forall_mem_singleton.2 id, .inr ⟨q, f, hbad, .single q f⟩⟩
        intro q' y h
        cases List.mem_singleton.1 h
        exact hq
    | cache c =>
      obtain ⟨hnext, hwrites⟩ := hd x
      have hrecorded := ih x hnext (t ++ [⟨.cache c, x⟩])
      rcases hwrites with hspares | hasks
      · refine hrecorded.mono fun a t' ht' => ?_
        obtain ⟨l, rfl, hl⟩ := ht'
        exact ⟨_ :: l, List.append_assoc .., hl.cons nofun id rfl (.inl hspares)⟩
      · refine (hrecorded.and (hasks.recorded _)).mono fun a t' ht' => ?_
        obtain ⟨⟨l, rfl, hl⟩, l', hl', hqueries⟩ := ht'
        obtain rfl := List.append_cancel_left hl'
        have hanswered : Answered l := fun y hy => Exchange.not_fails_of_not_isQuery (hqueries y hy)
        exact ⟨_ :: l, List.append_assoc .., hl.cons nofun id rfl (.inr hanswered)⟩
    | engine c => exact hd.elim

end Dialogue

namespace Attempt

variable {ε ε' α β : Type} {p : Store.Query → Prop} {E : Store.Failure → ε → Prop}

/-- The attempt asks the store only queries that satisfy `p`, and a query that fails makes it fail
at once with an error that `E` allows; after a write it asks no more queries. -/
def Aborts (p : Store.Query → Prop) (E : Store.Failure → ε → Prop) (a : Attempt ε α) : Prop :=
  Dialogue.Aborts p (fun f r => ∃ e, r = .error e ∧ E f e) a.run

theorem aborts_pure {a : α} : Aborts p E (pure a : Attempt ε α) := trivial

theorem aborts_throw {e : ε} : Aborts p E (throw e : Attempt ε α) := trivial

theorem aborts_of_asks {a : Attempt ε α} (h : Asks Request.IsCommand a) : Aborts p E a :=
  Dialogue.aborts_of_asks h

theorem aborts_askStore {q : Store.Query} (hq : p q) : Aborts p (fun f e => e = f) (askStore q) :=
  ⟨hq, fun _ => trivial, fun f => ⟨.error f, rfl, f, rfl, rfl⟩⟩

theorem Aborts.bind {a : Attempt ε α} {f : α → Attempt ε β} (ha : Aborts p E a)
    (hspares : Asks Request.Spares a) (hf : ∀ x, Aborts p E (f x)) : Aborts p E (a >>= f) := by
  refine Dialogue.Aborts.bind ha hspares (fun r => ?_) ?_
  · cases r with
    | ok x => exact hf x
    | error e => trivial
  · rintro failure _ ⟨e, rfl, he⟩
    exact ⟨.error e, rfl, e, rfl, he⟩

theorem Aborts.withError {E' : Store.Failure → ε' → Prop} {f : ε → ε'} {a : Attempt ε α}
    (ha : Aborts p E a) (hspares : Asks Request.Spares a) (hf : ∀ failure e, E failure e →
      E' failure (f e)) : Aborts p E' (a.withError f) := by
  refine Dialogue.Aborts.bind ha hspares (fun _ => trivial) ?_
  rintro failure _ ⟨e, rfl, he⟩
  exact ⟨.error (f e), rfl, f e, rfl, hf failure e he⟩

/-- What comes after a part whose failing is looked at, is ensured whether or not it fails. -/
theorem ensures_outcome_bind {σ : Type} {B : Behaviour Request Request.Reply σ} {I : σ → Prop}
    {ok : β → σ → Prop} {err : ε' → σ → Prop} {a : Attempt ε α} {f : Except ε α → Attempt ε' β}
    {s : σ} : Ensures B I ok err (outcome a >>= f) s ↔
      Dialogue.Ensures B I (fun r t => Ensures B I ok err (f r) t) a.run s := by
  rw [ensures_bind, ensures_outcome]
  refine Dialogue.ensures_congr fun r t => ?_
  cases r <;> exact .rfl

end Attempt

end CatalogSearch
