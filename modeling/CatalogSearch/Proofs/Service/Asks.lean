import CatalogSearch.Proofs.Service.Ensures

/-!
# Requests that work can make

Which requests work can make at all, whatever the replies. Work keeps what all the requests that it
can make keep (`Asks.ensures`).
-/

namespace CatalogSearch

namespace Dialogue

variable {Req : Type} {Reply : Req → Type} {α β σ : Type} {p : Req → Prop}

/-- All requests that work can make satisfy `p`. -/
def Asks (p : Req → Prop) : Dialogue Req Reply α → Prop
  | done _ => True
  | ask r next => p r ∧ ∀ x, Asks p (next x)

theorem Asks.imp {q : Req → Prop} (hpq : ∀ r, p r → q r) {d : Dialogue Req Reply α}
    (hd : Asks p d) : Asks q d := by
  induction d with
  | done a => trivial
  | ask r next ih => exact ⟨hpq r hd.1, fun x => ih x (hd.2 x)⟩

theorem Asks.bind {d : Dialogue Req Reply α} {f : α → Dialogue Req Reply β} (hd : Asks p d)
    (hf : ∀ a, Asks p (f a)) : Asks p (d.bind f) := by
  induction d with
  | done a => exact hf a
  | ask r next ih => exact ⟨hd.1, fun x => ih x (hd.2 x)⟩

theorem Asks.ensures {B : Behaviour Req Reply σ} {I J : σ → Prop}
    (hB : ∀ r s x t, p r → J s → B r s x t → J t) (hI : ∀ s, J s → I s)
    {d : Dialogue Req Reply α} {s : σ} (hd : Asks p d) (hs : J s) :
    Ensures B I (fun _ t => J t) d s := by
  induction d generalizing s with
  | done a => exact hs
  | ask r next ih =>
    intro x t hx
    have ht := hB r s x t hd.1 hs hx
    exact ⟨hI t ht, ih x (hd.2 x) ht⟩

end Dialogue

variable {ε ε' α β : Type} {p : Request → Prop}

namespace Attempt

/-- All requests that the attempt can make satisfy `p`. -/
def Asks (p : Request → Prop) (a : Attempt ε α) : Prop := Dialogue.Asks p a.run

theorem Asks.imp {q : Request → Prop} {a : Attempt ε α} (ha : Asks p a)
    (hpq : ∀ r, p r → q r) : Asks q a :=
  Dialogue.Asks.imp hpq ha

theorem asks_pure {a : α} : Asks p (pure a : Attempt ε α) := trivial

theorem asks_throw {e : ε} : Asks p (throw e : Attempt ε α) := trivial

theorem asks_askEngine {c : Engine.Call} (h : p (.engine c)) : Asks p (askEngine c) :=
  ⟨h, fun _ => trivial⟩

theorem asks_askCache {c : Cache.Command} (h : p (.cache c)) : Asks p (askCache c) :=
  ⟨h, fun _ => trivial⟩

theorem Asks.bind {a : Attempt ε α} {f : α → Attempt ε β} (ha : Asks p a) (hf : ∀ x, Asks p (f x)) :
    Asks p (a >>= f) :=
  Dialogue.Asks.bind ha fun
    | .ok x => hf x
    | .error _ => trivial

theorem Asks.withError {f : ε → ε'} {a : Attempt ε α} (ha : Asks p a) : Asks p (a.withError f) :=
  Dialogue.Asks.bind ha fun _ => trivial

theorem Asks.outcome {a : Attempt ε α} (ha : Asks p a) :
    Asks p (CatalogSearch.outcome a : Attempt ε' (Except ε α)) :=
  Dialogue.Asks.bind ha fun _ => trivial

theorem Asks.ensures {σ : Type} {B : Behaviour Request Request.Reply σ} {I J : σ → Prop}
    (hB : ∀ r s x t, p r → J s → B r s x t → J t) (hI : ∀ s, J s → I s) {a : Attempt ε α} {s : σ}
    (ha : Asks p a) (hs : J s) : Ensures B I (fun _ t => J t) (fun _ t => J t) a s :=
  (Dialogue.Asks.ensures hB hI ha hs).mono fun r _ ht => by cases r <;> exact ht

end Attempt

namespace Worker

/-- All requests that the work can make satisfy `p`, whatever the worker is connected to. -/
def Asks (p : Request → Prop) (w : Worker ε α) : Prop := ∀ c, Dialogue.Asks p (w.run c)

theorem asks_pure {a : α} : Asks p (pure a : Worker ε α) := fun _ => trivial

theorem asks_throw {e : ε} : Asks p (throw e : Worker ε α) := fun _ => trivial

theorem asks_get : Asks p (get : Worker ε Connections) := fun _ => trivial

theorem asks_modify {f : Connections → Connections} : Asks p (modify f : Worker ε Unit) :=
  fun _ => trivial

theorem asks_ofAttempt {a : Attempt ε α} (ha : Attempt.Asks p a) : Asks p (ofAttempt a) :=
  fun _ => Dialogue.Asks.bind ha fun _ => trivial

theorem asks_run_get {f : Connections → Worker ε α} {c : Connections}
    (hf : Dialogue.Asks p ((f c).run c)) : Dialogue.Asks p ((get >>= f).run c) := hf

theorem asks_run_bind {w : Worker ε α} {f : α → Worker ε β} {c : Connections}
    (hw : Dialogue.Asks p (w.run c)) (hf : ∀ x, Asks p (f x)) :
    Dialogue.Asks p ((w >>= f).run c) :=
  Dialogue.Asks.bind hw fun
    | (.ok x, d) => hf x d
    | (.error _, _) => trivial

theorem Asks.bind {w : Worker ε α} {f : α → Worker ε β} (hw : Asks p w) (hf : ∀ x, Asks p (f x)) :
    Asks p (w >>= f) :=
  fun c => asks_run_bind (hw c) hf

theorem Asks.withError {f : ε → ε'} {w : Worker ε α} (hw : Asks p w) : Asks p (w.withError f) :=
  fun c => Dialogue.Asks.bind (hw c) fun _ => trivial

theorem Asks.outcome {w : Worker ε α} (hw : Asks p w) :
    Asks p (w.outcome : Worker ε' (Except ε α)) :=
  fun c => Dialogue.Asks.bind (hw c) fun _ => trivial

end Worker

end CatalogSearch
