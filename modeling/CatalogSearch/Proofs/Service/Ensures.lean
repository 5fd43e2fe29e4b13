import CatalogSearch.Worker.Connections

/-!
# What work comes to

What work comes to, whatever the other side does.

A behaviour says which replies a request may get and in which state each of them leaves the other
side. `Dialogue.Reaches` tells how far work can have come. `Dialogue.Ensures` is the weakest
condition on a state under which an invariant holds after every single reply and a postcondition at
the end; `Dialogue.Ensures.rest` carries it along. Attempts and the worker's work have one
postcondition for their values and one for their errors.
-/

namespace CatalogSearch

/-- The replies that requests may get, with the states before and after each of them. -/
abbrev Behaviour (Req : Type) (Reply : Req → Type) (σ : Type) : Type :=
  (r : Req) → σ → Reply r → σ → Prop

/-- One postcondition for values and one for errors. -/
def onResult {ε α σ : Type} (ok : α → σ → Prop) (err : ε → σ → Prop) : Except ε α → σ → Prop
  | .ok a, s => ok a s
  | .error e, s => err e s

namespace Dialogue

variable {Req : Type} {Reply : Req → Type} {α β σ : Type} {B : Behaviour Req Reply σ}
  {I : σ → Prop}

/-- How far work can have come in which state, one request after the other answered. -/
inductive Reaches (B : Behaviour Req Reply σ) :
    Dialogue Req Reply α → σ → Dialogue Req Reply α → σ → Prop where
  | here {d : Dialogue Req Reply α} {s : σ} : Reaches B d s d s
  | reply {r : Req} {next : Reply r → Dialogue Req Reply α} {d : Dialogue Req Reply α}
      {s t u : σ} {x : Reply r} :
      B r s x t → Reaches B (next x) t d u → Reaches B (ask r next) s d u

/-- The invariant holds after every reply that the behaviour allows, and the postcondition at the
end. -/
def Ensures (B : Behaviour Req Reply σ) (I : σ → Prop) (post : α → σ → Prop) :
    Dialogue Req Reply α → σ → Prop
  | done a, s => post a s
  | ask r next, s => ∀ x t, B r s x t → I t ∧ Ensures B I post (next x) t

theorem Ensures.mono {post post' : α → σ → Prop} {d : Dialogue Req Reply α} {s : σ}
    (h : Ensures B I post d s) (hpost : ∀ a t, post a t → post' a t) :
    Ensures B I post' d s := by
  induction d generalizing s with
  | done a => exact hpost a s h
  | ask r next ih => exact fun x t hx => ⟨(h x t hx).1, ih x (h x t hx).2⟩

/-- Work ensures two postconditions if it ensures each of them. -/
theorem Ensures.and {post post' : α → σ → Prop} {d : Dialogue Req Reply α} {s : σ}
    (h : Ensures B I post d s) (h' : Ensures B I post' d s) :
    Ensures B I (fun a t => post a t ∧ post' a t) d s := by
  induction d generalizing s with
  | done a => exact ⟨h, h'⟩
  | ask r next ih =>
    intro x t hx
    obtain ⟨hI, hnext⟩ := h x t hx
    exact ⟨hI, ih x hnext (h' x t hx).2⟩

theorem ensures_true {d : Dialogue Req Reply α} {s : σ} :
    Ensures B (fun _ => True) (fun _ _ => True) d s := by
  induction d generalizing s with
  | done a => trivial
  | ask r next ih => exact fun x t _ => ⟨trivial, ih x⟩

theorem ensures_congr {post post' : α → σ → Prop} {d : Dialogue Req Reply α} {s : σ}
    (h : ∀ a t, post a t ↔ post' a t) : Ensures B I post d s ↔ Ensures B I post' d s :=
  ⟨fun hd => hd.mono fun a t => (h a t).1, fun hd => hd.mono fun a t => (h a t).2⟩

theorem ensures_bind {post : β → σ → Prop} {d : Dialogue Req Reply α}
    {f : α → Dialogue Req Reply β} {s : σ} :
    Ensures B I post (d.bind f) s ↔ Ensures B I (fun a t => Ensures B I post (f a) t) d s := by
  induction d generalizing s with
  | done a => exact .rfl
  | ask r next ih =>
    exact forall_congr' fun x => forall_congr' fun t => forall_congr' fun _ =>
      and_congr_right fun _ => ih x

/-- What work ensures, the rest of it ensures wherever it has come to. -/
theorem Ensures.rest {post : α → σ → Prop} {d d' : Dialogue Req Reply α} {s s' : σ}
    (h : Ensures B I post d s) (hr : Reaches B d s d' s') : Ensures B I post d' s' := by
  induction hr with
  | here => exact h
  | reply hx _ ih => exact ih (h _ _ hx).2

/-- An invariant that holds at first holds wherever the work has come to. -/
theorem Ensures.invariant {post : α → σ → Prop} {d d' : Dialogue Req Reply α} {s s' : σ}
    (h : Ensures B I post d s) (hs : I s) (hr : Reaches B d s d' s') : I s' := by
  induction hr with
  | here => exact hs
  | reply hx _ ih => exact ih (h _ _ hx).2 (h _ _ hx).1

/-- Work done by a handler whose replies the behaviour allows reaches its end. -/
theorem reaches_run {handler : (r : Req) → σ → Reply r × σ}
    (hB : ∀ r s, B r s (handler r s).1 (handler r s).2) (d : Dialogue Req Reply α) (s : σ) :
    Reaches B d s (done (d.run handler s).1) (d.run handler s).2 := by
  induction d generalizing s with
  | done a => exact .here
  | ask r next ih => exact .reply (hB r s) (ih _ _)

/-- A handler of two behaviours brings work to one end in both. -/
theorem exists_reaches_both {B' : Behaviour Req Reply σ}
    {handler : (r : Req) → σ → Reply r × σ}
    (hB : ∀ r s, B r s (handler r s).1 (handler r s).2)
    (hB' : ∀ r s, B' r s (handler r s).1 (handler r s).2) (d : Dialogue Req Reply α) (s : σ) :
    ∃ a t, Reaches B d s (done a) t ∧ Reaches B' d s (done a) t :=
  ⟨_, _, reaches_run hB d s, reaches_run hB' d s⟩

/-- What work ensures against a behaviour holds of its run against a handler of that behaviour. -/
theorem Ensures.run {post : α → σ → Prop} {handler : (r : Req) → σ → Reply r × σ}
    (hB : ∀ r s, B r s (handler r s).1 (handler r s).2) {d : Dialogue Req Reply α} {s : σ}
    (h : Ensures B I post d s) : post (d.run handler s).1 (d.run handler s).2 :=
  h.rest (reaches_run hB d s)

/-- The behaviour of a handler. -/
def handledBy (handler : (r : Req) → σ → Reply r × σ) : Behaviour Req Reply σ :=
  fun r s x t => (x, t) = handler r s

theorem Ensures.run_handledBy {post : α → σ → Prop} {handler : (r : Req) → σ → Reply r × σ}
    {d : Dialogue Req Reply α} {s : σ} (h : Ensures (handledBy handler) I post d s) :
    post (d.run handler s).1 (d.run handler s).2 :=
  h.run fun _ _ => rfl

/-- Work that is answered as some other behaviour would answer it ensures what it ensures there. -/
theorem Ensures.simulate {τ : Type} {B' : Behaviour Req Reply τ} {I' : τ → Prop}
    {R : τ → σ → Prop}
    (hR : ∀ r t x t' s, R t s → B' r t x t' → ∃ s', B r s x s' ∧ R t' s')
    {post : α → σ → Prop} {post' : α → τ → Prop} (hI : ∀ t s, R t s → I s → I' t)
    (hpost : ∀ a t s, R t s → post a s → post' a t) {d : Dialogue Req Reply α} {s : σ} {t : τ}
    (h : Ensures B I post d s) (hts : R t s) : Ensures B' I' post' d t := by
  induction d generalizing s t with
  | done a => exact hpost a t s hts h
  | ask r next ih =>
    intro x t' hx
    obtain ⟨s', hs', hts'⟩ := hR r t x t' s hts hx
    obtain ⟨hIs, hnext⟩ := h x s' hs'
    exact ⟨hI t' s' hts' hIs, ih x hnext hts'⟩

end Dialogue

namespace Attempt

variable {ε ε' α β σ : Type} {B : Behaviour Request Request.Reply σ} {I : σ → Prop}
  {ok : α → σ → Prop} {err : ε → σ → Prop} {s : σ}

/-- The invariant holds after every reply, and at the end one postcondition of the value or the
other one of the error. -/
def Ensures (B : Behaviour Request Request.Reply σ) (I : σ → Prop) (ok : α → σ → Prop)
    (err : ε → σ → Prop) (a : Attempt ε α) (s : σ) : Prop :=
  Dialogue.Ensures B I (onResult ok err) a.run s

theorem Ensures.mono {ok' : α → σ → Prop} {err' : ε → σ → Prop} {a : Attempt ε α}
    (h : Ensures B I ok err a s) (hok : ∀ a t, ok a t → ok' a t)
    (herr : ∀ e t, err e t → err' e t) : Ensures B I ok' err' a s :=
  Dialogue.Ensures.mono h fun
    | .ok a, t => hok a t
    | .error e, t => herr e t

theorem Ensures.and {ok' : α → σ → Prop} {err' : ε → σ → Prop} {a : Attempt ε α}
    (h : Ensures B I ok err a s) (h' : Ensures B I ok' err' a s) :
    Ensures B I (fun x t => ok x t ∧ ok' x t) (fun e t => err e t ∧ err' e t) a s :=
  (Dialogue.Ensures.and h h').mono fun r _ hr => by cases r <;> exact hr

theorem ensures_true {a : Attempt ε α} :
    Ensures B (fun _ => True) (fun _ _ => True) (fun _ _ => True) a s :=
  Dialogue.ensures_true.mono fun r _ _ => by cases r <;> trivial

@[simp] theorem ensures_pure {a : α} : Ensures B I ok err (pure a) s ↔ ok a s := .rfl

@[simp] theorem ensures_throw {e : ε} : Ensures B I ok err (throw e) s ↔ err e s := .rfl

theorem ensures_mk_done {r : Except ε α} :
    Ensures B I ok err (ExceptT.mk (.done r)) s ↔ onResult ok err r s := .rfl

/-- Work composed of two parts ensures what the first part ensures the second one does. -/
theorem ensures_bind {ok : β → σ → Prop} {a : Attempt ε α} {f : α → Attempt ε β} :
    Ensures B I ok err (a >>= f) s ↔
      Ensures B I (fun x t => Ensures B I ok err (f x) t) err a s := by
  refine Dialogue.ensures_bind.trans (Dialogue.ensures_congr fun r t => ?_)
  cases r <;> exact .rfl

theorem ensures_withError {f : ε → ε'} {err : ε' → σ → Prop} {a : Attempt ε α} :
    Ensures B I ok err (a.withError f) s ↔ Ensures B I ok (fun e => err (f e)) a s := by
  refine Dialogue.ensures_bind.trans (Dialogue.ensures_congr fun r t => ?_)
  cases r <;> exact .rfl

theorem ensures_outcome {ok : Except ε α → σ → Prop} {err : ε' → σ → Prop} {a : Attempt ε α} :
    Ensures B I ok err (outcome a) s ↔
      Ensures B I (fun x => ok (.ok x)) (fun e => ok (.error e)) a s := by
  refine Dialogue.ensures_bind.trans (Dialogue.ensures_congr fun r t => ?_)
  cases r <;> exact .rfl

theorem ensures_askEngine {c : Engine.Call} {ok : c.Answer → σ → Prop}
    {err : Engine.Fault → σ → Prop} :
    Ensures B I ok err (askEngine c) s ↔
      ∀ x t, B (.engine c) s x t → I t ∧ onResult ok err x t := .rfl

theorem ensures_askStore {q : Store.Query} {ok : q.Answer → σ → Prop}
    {err : Store.Failure → σ → Prop} :
    Ensures B I ok err (askStore q) s ↔
      ∀ x t, B (.store q) s x t → I t ∧ onResult ok err x t := .rfl

theorem ensures_askCache {c : Cache.Command} {ok : c.Answer → σ → Prop}
    {err : Cache.Fault → σ → Prop} :
    Ensures B I ok err (askCache c) s ↔
      ∀ x t, B (.cache c) s x t → I t ∧ onResult ok err x t := .rfl

end Attempt

namespace Worker

variable {ε ε' α β σ : Type} {B : Behaviour Request Request.Reply σ} {I : σ → Prop}
  {ok : α → Connections → σ → Prop} {err : ε → Connections → σ → Prop} {c : Connections} {s : σ}

theorem reaches_run {handler : (r : Request) → σ → r.Reply × σ}
    (hB : ∀ r s, B r s (handler r s).1 (handler r s).2) (w : Worker ε α) (c : Connections) (s : σ) :
    Dialogue.Reaches B (w.run c) s
      (.done (((w.run c).run handler s).1.1, ((w.run c).run handler s).1.2))
      ((w.run c).run handler s).2 :=
  Dialogue.reaches_run hB (w.run c) s

/-- The invariant holds after every reply, and at the end one postcondition of the value and the
connections or the other one of the error and the connections. -/
def Ensures (B : Behaviour Request Request.Reply σ) (I : σ → Prop)
    (ok : α → Connections → σ → Prop) (err : ε → Connections → σ → Prop) (w : Worker ε α)
    (c : Connections) (s : σ) : Prop :=
  Dialogue.Ensures B I
    (fun rc => onResult (fun a => ok a rc.2) (fun e => err e rc.2) rc.1) (w.run c) s

theorem Ensures.mono {ok' : α → Connections → σ → Prop} {err' : ε → Connections → σ → Prop}
    {w : Worker ε α} (h : Ensures B I ok err w c s) (hok : ∀ a d t, ok a d t → ok' a d t)
    (herr : ∀ e d t, err e d t → err' e d t) : Ensures B I ok' err' w c s :=
  Dialogue.Ensures.mono h fun
    | (.ok a, d), t => hok a d t
    | (.error e, d), t => herr e d t

@[simp] theorem ensures_pure {a : α} : Ensures B I ok err (pure a) c s ↔ ok a c s := .rfl

@[simp] theorem ensures_throw {e : ε} : Ensures B I ok err (throw e) c s ↔ err e c s := .rfl

theorem ensures_get {ok : Connections → Connections → σ → Prop} :
    Ensures B I ok err get c s ↔ ok c c s := .rfl

theorem ensures_bind {ok : β → Connections → σ → Prop} {w : Worker ε α} {f : α → Worker ε β} :
    Ensures B I ok err (w >>= f) c s ↔
      Ensures B I (fun x d t => Ensures B I ok err (f x) d t) err w c s := by
  refine Dialogue.ensures_bind.trans (Dialogue.ensures_congr fun r t => ?_)
  obtain ⟨_ | _, _⟩ := r <;> exact .rfl

theorem ensures_ofAttempt {a : Attempt ε α} :
    Ensures B I ok err (ofAttempt a) c s ↔
      Attempt.Ensures B I (fun x => ok x c) (fun e => err e c) a s := by
  refine Dialogue.ensures_bind.trans (Dialogue.ensures_congr fun r t => ?_)
  cases r <;> exact .rfl

theorem ensures_withError {f : ε → ε'} {err : ε' → Connections → σ → Prop} {w : Worker ε α} :
    Ensures B I ok err (w.withError f) c s ↔ Ensures B I ok (fun e => err (f e)) w c s := by
  refine Dialogue.ensures_bind.trans (Dialogue.ensures_congr fun r t => ?_)
  obtain ⟨_ | _, _⟩ := r <;> exact .rfl

theorem ensures_outcome {ok : Except ε α → Connections → σ → Prop}
    {err : ε' → Connections → σ → Prop} {w : Worker ε α} :
    Ensures B I ok err w.outcome c s ↔
      Ensures B I (fun x => ok (.ok x)) (fun e => ok (.error e)) w c s := by
  refine Dialogue.ensures_bind.trans (Dialogue.ensures_congr fun r t => ?_)
  obtain ⟨_ | _, _⟩ := r <;> exact .rfl

end Worker

end CatalogSearch
