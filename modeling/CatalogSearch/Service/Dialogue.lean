/-!
# Dialogues

Work that asks others. A dialogue is a value, or a request and, for each reply to it, the rest of
the dialogue; each request is one step that others may do something before or after. What answers
the requests is not part of it: `run` takes it as an argument, so that the same work can be done
against any behaviour of the other side.
-/

namespace CatalogSearch

/-- Work that ends in a value after any number of requests. -/
inductive Dialogue (Req : Type) (Reply : Req → Type) (α : Type) : Type where
  | done (a : α)
  | ask (r : Req) (next : Reply r → Dialogue Req Reply α)

namespace Dialogue

variable {Req : Type} {Reply : Req → Type} {α β σ : Type}

/-- The work `d`, and then the work that `f` makes of its value. -/
def bind (d : Dialogue Req Reply α) (f : α → Dialogue Req Reply β) : Dialogue Req Reply β :=
  match d with
  | done a => f a
  | ask r next => ask r (fun x => (next x).bind f)

instance : Monad (Dialogue Req Reply) where
  pure := done
  bind := bind

/-- A single request, whose reply is the value. -/
def request (r : Req) : Dialogue Req Reply (Reply r) := ask r done

/-- Does the work, each request answered by `handler`, which carries a state along. -/
def run (handler : (r : Req) → σ → Reply r × σ) : Dialogue Req Reply α → σ → α × σ
  | done a, s => (a, s)
  | ask r next, s => (next (handler r s).1).run handler (handler r s).2

@[simp] theorem pure_eq (a : α) : (pure a : Dialogue Req Reply α) = done a := rfl

@[simp] theorem bind_eq (d : Dialogue Req Reply α) (f : α → Dialogue Req Reply β) :
    d >>= f = d.bind f := rfl

@[simp] theorem done_bind (a : α) (f : α → Dialogue Req Reply β) : (done a).bind f = f a := rfl

@[simp] theorem ask_bind (r : Req) (next : Reply r → Dialogue Req Reply α)
    (f : α → Dialogue Req Reply β) : (ask r next).bind f = ask r (fun x => (next x).bind f) := rfl

theorem bind_done (d : Dialogue Req Reply α) : d.bind done = d := by
  induction d with
  | done a => rfl
  | ask r next ih => simp only [bind, ih]

theorem bind_assoc {γ : Type} (d : Dialogue Req Reply α) (f : α → Dialogue Req Reply β)
    (g : β → Dialogue Req Reply γ) : (d.bind f).bind g = d.bind (fun a => (f a).bind g) := by
  induction d with
  | done a => rfl
  | ask r next ih => simp only [bind, ih]

instance : LawfulMonad (Dialogue Req Reply) :=
  LawfulMonad.mk' _ bind_done (fun _ _ => rfl) bind_assoc

/-- A composed piece of work is done one part after the other. -/
theorem run_bind (handler : (r : Req) → σ → Reply r × σ) (d : Dialogue Req Reply α)
    (f : α → Dialogue Req Reply β) (s : σ) :
    (d.bind f).run handler s =
      (f (d.run handler s).1).run handler (d.run handler s).2 := by
  induction d generalizing s with
  | done a => rfl
  | ask r next ih => exact ih _ _

end Dialogue

end CatalogSearch
