import FantasyConsole.Fault

/-!
# Computations with related outcomes

Two computations that can fault are compared by what comes out of them: the same fault, or results
that are related.
-/

namespace FantasyConsole

/-- Whether two computations fail with the same fault, or succeed with related results. -/
def SameOutcome {α β : Type} (related : α → β → Prop) : Except Fault α → Except Fault β → Prop
  | .ok a, .ok b => related a b
  | .error fault, .error other => fault = other
  | _, _ => False

namespace SameOutcome

variable {α β γ δ : Type} {related : α → β → Prop} {after : γ → δ → Prop}
  {x : Except Fault α} {y : Except Fault β}

theorem cases (same : SameOutcome related x y) :
    (∃ a b, x = .ok a ∧ y = .ok b ∧ related a b) ∨
      ∃ fault, x = .error fault ∧ y = .error fault := by
  cases x with
  | ok a =>
    cases y with
    | ok b => exact .inl ⟨a, b, rfl, rfl, same⟩
    | error => exact same.elim
  | error fault =>
    cases y with
    | ok => exact same.elim
    | error other => exact .inr ⟨fault, rfl, same ▸ rfl⟩

theorem mono (same : SameOutcome related x y) {weaker : α → β → Prop}
    (weaken : ∀ a b, related a b → weaker a b) : SameOutcome weaker x y := by
  obtain ⟨a, b, rfl, rfl, both⟩ | ⟨fault, rfl, rfl⟩ := same.cases
  · exact weaken a b both
  · rfl

theorem bind (same : SameOutcome related x y) {f : α → Except Fault γ} {g : β → Except Fault δ}
    (step : ∀ a b, related a b → SameOutcome after (f a) (g b)) :
    SameOutcome after (x >>= f) (y >>= g) := by
  obtain ⟨a, b, rfl, rfl, both⟩ | ⟨fault, rfl, rfl⟩ := same.cases
  · exact step a b both
  · rfl

theorem map (same : SameOutcome related x y) {f : α → γ} {g : β → δ}
    (step : ∀ a b, related a b → after (f a) (g b)) : SameOutcome after (x.map f) (y.map g) := by
  obtain ⟨a, b, rfl, rfl, both⟩ | ⟨fault, rfl, rfl⟩ := same.cases
  · exact step a b both
  · rfl

theorem foldlM {ι : Type} {f : α → ι → Except Fault α} {g : β → ι → Except Fault β}
    (step : ∀ a b, related a b → ∀ i, SameOutcome related (f a i) (g b i)) (items : List ι)
    {a : α} {b : β} (start : related a b) :
    SameOutcome related (items.foldlM f a) (items.foldlM g b) := by
  induction items generalizing a b with
  | nil => exact start
  | cons i items ih =>
    rw [List.foldlM_cons, List.foldlM_cons]
    exact (step a b start i).bind fun _ _ next => ih next

end SameOutcome

end FantasyConsole
