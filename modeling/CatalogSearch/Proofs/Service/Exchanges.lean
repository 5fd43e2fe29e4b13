import CatalogSearch.Proofs.Service.Ensures

/-!
# Work by its exchanges

`Dialogue.recorded` allows any reply and keeps a record of them all; `Dialogue.among` allows only
replies on a record that is given. What work comes to can be traced to the exchanges of the run it
came to it in (`ensures_recorded`).
-/

namespace CatalogSearch

/-- A request with the reply to it. -/
abbrev Exchange : Type := (r : Request) × r.Reply

/-- The exchange cancels the work. -/
def Exchange.cancels : Exchange → Bool
  | ⟨.engine _, .error .cancelled⟩ => true
  | _ => false

namespace Dialogue

variable {α : Type} {record t : List Exchange} {I : List Exchange → Prop}

/-- Any reply may be given, and is put on the record. -/
def recorded : Behaviour Request Request.Reply (List Exchange) :=
  fun r t x t' => t' = t ++ [⟨r, x⟩]

/-- The replies are on the record. -/
def among (record : List Exchange) : Behaviour Request Request.Reply Unit :=
  fun r _ x _ => ⟨r, x⟩ ∈ record

/-- What work comes to whenever its replies are on some record, it comes to with the record of its
own run. -/
theorem ensures_recorded {post : List Exchange → α → Prop} {d : Work α}
    (h : ∀ record, t ⊆ record → Ensures (among record) (fun _ => True) (fun a _ => post record a)
      d ()) :
    Ensures recorded (fun _ => True) (fun a t' => post t' a) d t := by
  induction d generalizing t with
  | done a => exact h t (List.Subset.refl t)
  | ask r next ih =>
    rintro x _ rfl
    refine ⟨trivial, ih x fun record hrecord => ?_⟩
    have hx : (⟨r, x⟩ : Exchange) ∈ record :=
      hrecord (List.mem_append_right t List.mem_cons_self)
    exact (h record (List.Subset.trans (List.subset_append_left t _) hrecord) x () hx).2

/-- What is on the record stays there. -/
theorem ensures_extended (d : Work α) :
    Ensures recorded (fun _ => True) (fun _ t' => t ⊆ t') d t := by
  induction d generalizing t with
  | done a => exact List.Subset.refl t
  | ask r next ih =>
    rintro x _ rfl
    exact ⟨trivial, (ih x).mono fun _ _ h => List.Subset.trans (List.subset_append_left t _) h⟩

/-- Replies that do not depend on what was asked before, each put on the record. -/
def recording (reply : (r : Request) → r.Reply) (r : Request) (t : List Exchange) :
    r.Reply × List Exchange :=
  (reply r, t ++ [⟨r, reply r⟩])

end Dialogue

theorem Attempt.ensures_extended {ε α : Type} (a : Attempt ε α) (t : List Exchange) :
    Ensures Dialogue.recorded (fun _ => True) (fun _ t' => t ⊆ t') (fun _ t' => t ⊆ t') a t :=
  (Dialogue.ensures_extended a.run).mono fun r _ h => by cases r <;> exact h

theorem Attempt.ensures_recorded {ε α : Type} {t : List Exchange} {ok : List Exchange → α → Prop}
    {err : List Exchange → ε → Prop} {a : Attempt ε α}
    (h : ∀ record, Ensures (Dialogue.among record) (fun _ => True) (fun x _ => ok record x)
      (fun e _ => err record e) a ()) :
    Ensures Dialogue.recorded (fun _ => True) (fun x t' => ok t' x) (fun e t' => err t' e) a t := by
  have hrecorded : Dialogue.Ensures Dialogue.recorded (fun _ => True)
      (fun r t' => onResult (fun x _ => ok t' x) (fun e _ => err t' e) r ()) a.run t :=
    Dialogue.ensures_recorded fun record _ => h record
  exact hrecorded.mono fun r t' hr => by cases r <;> exact hr

end CatalogSearch
