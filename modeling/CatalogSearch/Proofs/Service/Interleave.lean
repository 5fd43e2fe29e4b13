import CatalogSearch.Proofs.Service.Asks

/-!
# Work at the same time

Two pieces of work done at the same time. Their requests come one by one, in any order that keeps
that of each of the two, and all of them meet one state. Where requests of one commute with those of
the other, it does not matter which order it is: they come to what they come to one after the other
(`Interleaves.sequential`).
-/

namespace CatalogSearch.Dialogue

variable {Req : Type} {Reply : Req → Type} {α β σ : Type} {h : (r : Req) → σ → Reply r × σ}

/-- Both pieces of work can come to their values and leave the state, their requests answered in
some order. -/
inductive Interleaves (h : (r : Req) → σ → Reply r × σ) :
    Dialogue Req Reply α → Dialogue Req Reply β → σ → α → β → σ → Prop where
  | done (a : α) (b : β) (s : σ) : Interleaves h (done a) (done b) s a b s
  | left {r : Req} {next : Reply r → Dialogue Req Reply α} {d : Dialogue Req Reply β} {s t : σ}
    {a : α} {b : β} :
    Interleaves h (next (h r s).1) d (h r s).2 a b t → Interleaves h (ask r next) d s a b t
  | right {r : Req} {d : Dialogue Req Reply α} {next : Reply r → Dialogue Req Reply β} {s t : σ}
    {a : α} {b : β} :
    Interleaves h d (next (h r s).1) (h r s).2 a b t → Interleaves h d (ask r next) s a b t

/-- Two requests get the same replies, and leave the same state, whichever of them comes first. -/
structure Commute (h : (r : Req) → σ → Reply r × σ) (r₁ r₂ : Req) : Prop where
  left : ∀ s, (h r₁ (h r₂ s).2).1 = (h r₁ s).1
  right : ∀ s, (h r₂ (h r₁ s).2).1 = (h r₂ s).1
  state : ∀ s, (h r₁ (h r₂ s).2).2 = (h r₂ (h r₁ s).2).2

/-- A request that commutes with all those of some work may come before it as well as after it. -/
theorem run_commute {d : Dialogue Req Reply α} {r : Req}
    (hd : Asks (fun r' => Commute h r' r) d) (s : σ) :
    d.run h (h r s).2 = ((d.run h s).1, (h r (d.run h s).2).2) ∧
      (h r (d.run h s).2).1 = (h r s).1 := by
  induction d generalizing s with
  | done a => exact ⟨rfl, rfl⟩
  | ask r' next ih =>
    obtain ⟨hr, hnext⟩ := hd
    obtain ⟨hrun, hreply⟩ := ih (h r' s).1 (hnext _) (h r' s).2
    refine ⟨?_, hreply.trans (hr.right s)⟩
    rw [run, run, hr.left, hr.state]
    exact hrun

/-- Work whose requests commute comes, in any order, to what it comes to one after the other. -/
theorem Interleaves.sequential {p₁ p₂ : Req → Prop}
    (hcommute : ∀ r₁ r₂, p₁ r₁ → p₂ r₂ → Commute h r₁ r₂) {d₁ : Dialogue Req Reply α}
    {d₂ : Dialogue Req Reply β} {s t : σ} {a : α} {b : β} (hi : Interleaves h d₁ d₂ s a b t)
    (h₁ : Asks p₁ d₁) (h₂ : Asks p₂ d₂) : ∃ u, d₁.run h s = (a, u) ∧ d₂.run h u = (b, t) := by
  induction hi with
  | done a b s => exact ⟨s, rfl, rfl⟩
  | left _ ih => exact ih (h₁.2 _) h₂
  | @right r d next s t a b _ ih =>
    obtain ⟨u, hrun, hnext⟩ := ih h₁ (h₂.2 _)
    have hasks : Asks (fun r' => Commute h r' r) d :=
      h₁.imp fun r' hr' => hcommute r' r hr' h₂.1
    obtain ⟨hrun', hreply⟩ := run_commute hasks s
    rw [hrun] at hrun'
    obtain ⟨rfl, rfl⟩ := Prod.mk.inj hrun'
    refine ⟨(d.run h s).2, rfl, ?_⟩
    rw [run, hreply]
    exact hnext

/-- Does both pieces of work, taking turns as told while both have requests left: `true` for the
first one. -/
def takeTurns (h : (r : Req) → σ → Reply r × σ) :
    List Bool → Dialogue Req Reply α → Dialogue Req Reply β → σ → (α × β) × σ
  | true :: turns, ask r next, d, s => takeTurns h turns (next (h r s).1) d (h r s).2
  | false :: turns, d, ask r next, s => takeTurns h turns d (next (h r s).1) (h r s).2
  | _, d₁, d₂, s =>
    (((d₁.run h s).1, (d₂.run h (d₁.run h s).2).1), (d₂.run h (d₁.run h s).2).2)

theorem interleaves_run (d₁ : Dialogue Req Reply α) (d₂ : Dialogue Req Reply β) (s : σ) :
    Interleaves h d₁ d₂ s (d₁.run h s).1 (d₂.run h (d₁.run h s).2).1
      (d₂.run h (d₁.run h s).2).2 := by
  induction d₁ generalizing s with
  | ask r next ih => exact .left (ih _ _)
  | done a =>
    induction d₂ generalizing s with
    | done b => exact .done a b s
    | ask r next ih => exact .right (ih _ _)

/-- Taking turns is one of the orders. -/
theorem interleaves_takeTurns (turns : List Bool) (d₁ : Dialogue Req Reply α)
    (d₂ : Dialogue Req Reply β) (s : σ) :
    Interleaves h d₁ d₂ s (takeTurns h turns d₁ d₂ s).1.1 (takeTurns h turns d₁ d₂ s).1.2
      (takeTurns h turns d₁ d₂ s).2 := by
  fun_induction takeTurns h turns d₁ d₂ s with
  | case1 turns r next d s ih => exact .left ih
  | case2 turns d r next s ih => exact .right ih
  | case3 turns d₁ d₂ s => exact interleaves_run d₁ d₂ s

end CatalogSearch.Dialogue
