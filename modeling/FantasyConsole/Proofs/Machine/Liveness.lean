import FantasyConsole.Proofs.Machine.Recording

/-!
# Live interpreters

An interpreter is live from a successful start until its next close. A history is orderly if no
interpreter is started while one is live, and every other call goes to the live one.

## Main result

`Conversation.orderly`: a history that an automaton accepts which remembers only the live interpreter
is orderly.
-/

namespace FantasyConsole

/-- Whether an interpreter is live after a history: it has started a program and has not been closed
since. -/
def IsLive (h : List Call) (index : Nat) : Prop :=
  ∃ code before after,
    h = before ++ ⟨index, .init code true⟩ :: after ∧ (⟨index, .close⟩ : Call) ∉ after

/-- Whether a call may follow a history: nothing is started while an interpreter is live, and every
other call goes to a live interpreter. -/
def Call.Follows (h : List Call) (c : Call) : Prop :=
  match c.callback with
  | .init _ _ => ∀ index, ¬ IsLive h index
  | _ => IsLive h c.interpreter

/-- At every moment at most one interpreter is live, and every call was one that may follow. -/
structure Orderly (h : List Call) : Prop where
  one : ∀ before, before <+: h → ∀ i j, IsLive before i → IsLive before j → i = j
  next : ∀ before c, before ++ [c] <+: h → c.Follows before

/-! ### Liveness from call to call -/

theorem not_isLive_nil (index : Nat) : ¬ IsLive [] index := by
  rintro ⟨code, before, after, same, _⟩
  exact List.cons_ne_nil _ _ (List.append_eq_nil_iff.mp same.symm).2

theorem isLive_concat (h : List Call) (c : Call) (index : Nat) :
    IsLive (h ++ [c]) index ↔
      (∃ code, c = ⟨index, .init code true⟩) ∨ IsLive h index ∧ c ≠ ⟨index, .close⟩ := by
  constructor
  · rintro ⟨code, before, after, same, kept⟩
    -- the start is either the last call or stands in the history before it
    rcases List.eq_nil_or_concat after with rfl | ⟨rest, last, rfl⟩
    · exact .inl ⟨code, (List.append_singleton_inj.mp same).2⟩
    · rw [List.concat_eq_append, ← List.cons_append, ← List.append_assoc] at same
      obtain ⟨rfl, rfl⟩ := List.append_singleton_inj.mp same
      rw [List.concat_eq_append, List.mem_append, not_or] at kept
      exact .inr ⟨⟨code, before, rest, rfl, kept.1⟩, fun closed => kept.2 (closed ▸ List.mem_singleton_self _)⟩
  · rintro (⟨code, rfl⟩ | ⟨⟨code, before, after, rfl, kept⟩, other⟩)
    · exact ⟨code, h, [], rfl, List.not_mem_nil⟩
    · refine ⟨code, before, after ++ [c], by rw [List.append_assoc]; rfl, ?_⟩
      rw [List.mem_append, not_or]
      exact ⟨kept, fun closed => other (List.mem_singleton.mp closed).symm⟩

/-! ### The automaton -/

/-- Whether a call is none that starts or ends a program. -/
def Callback.Serves : Callback → Prop
  | .init _ _ | .close => False
  | _ => True

/-- Whether a call may be made while `live` is live. -/
def Call.Fits (live : Option Nat) (c : Call) : Prop :=
  match c.callback with
  | .init _ _ => live = none
  | _ => live = some c.interpreter

/-- What is live after a call. -/
def Call.next (live : Option Nat) (c : Call) : Option Nat :=
  match c.callback with
  | .init _ started => if started then some c.interpreter else live
  | .close => none
  | _ => live

/-- The calls that lead from one live interpreter to another, or to none. -/
inductive Conversation (first : Option Nat) : List Call → Option Nat → Prop
  | nil : Conversation first [] first
  | concat {h : List Call} {live : Option Nat} {c : Call} (before : Conversation first h live)
      (fits : c.Fits live) : Conversation first (h ++ [c]) (c.next live)

namespace Conversation

theorem one {live : Option Nat} {c : Call} (fits : c.Fits live) :
    Conversation live [c] (c.next live) :=
  Conversation.concat .nil fits

theorem trans {first middle last : Option Nat} {h k : List Call}
    (before : Conversation first h middle) (after : Conversation middle k last) :
    Conversation first (h ++ k) last := by
  induction after with
  | nil =>
    rw [List.append_nil]
    exact before
  | concat _ fits ih =>
    rw [← List.append_assoc]
    exact ih.concat fits

/-- Calls that serve the program of one interpreter leave it live. -/
theorem serves {index : Nat} (callbacks : List Callback)
    (serve : ∀ callback ∈ callbacks, callback.Serves) :
    Conversation (some index) (callbacks.map (⟨index, ·⟩)) (some index) := by
  induction callbacks with
  | nil => exact .nil
  | cons callback rest ih =>
    have later := ih fun callback member => serve callback (List.mem_cons_of_mem _ member)
    have first : Conversation (some index) [⟨index, callback⟩] (some index) := by
      have serving := serve callback List.mem_cons_self
      cases callback with
      | init | close => exact serving.elim
      | _ => exact .one rfl
    exact first.trans later

/-- The automaton knows which interpreter is live. -/
theorem isLive_iff {h : List Call} {live : Option Nat} (conversation : Conversation none h live)
    (index : Nat) : IsLive h index ↔ live = some index := by
  -- a start that succeeds and a close are the only calls that change what is live
  induction conversation with
  | nil =>
    constructor
    · exact fun started => absurd started (not_isLive_nil index)
    · rintro ⟨⟩
  | @concat h live c before fits ih =>
    rw [isLive_concat, ih]
    obtain ⟨i, callback⟩ := c
    cases callback with
    | init code started =>
      have idle : live = none := fits
      subst idle
      cases started with
      | true => simp [Call.next]
      | false => simp [Call.next]
    | close =>
      have bound : live = some i := fits
      subst bound
      simp [Call.next]
    | _ => simp [Call.next]

theorem follows {h : List Call} {live : Option Nat} (conversation : Conversation none h live)
    {c : Call} (fits : c.Fits live) : c.Follows h := by
  obtain ⟨i, callback⟩ := c
  cases callback with
  | init code started =>
    intro index started
    rw [conversation.isLive_iff] at started
    have idle : live = none := fits
    rw [idle] at started
    cases started
  | _ => exact (conversation.isLive_iff i).mpr fits

/-- A history that the automaton accepts is orderly. -/
theorem orderly {h : List Call} {live : Option Nat} (conversation : Conversation none h live) :
    Orderly h := by
  induction conversation with
  | nil =>
    constructor
    · intro before start i j first
      rw [List.prefix_nil.mp start] at first
      exact absurd first (not_isLive_nil i)
    · intro before c start
      exact absurd (List.prefix_nil.mp start) (List.append_ne_nil_of_right_ne_nil _ (List.cons_ne_nil _ _))
  | @concat h live c before fits ih =>
    constructor
    · intro start inside i j first second
      rcases List.prefix_concat_iff.mp inside with rfl | earlier
      · have whole := before.concat fits
        rw [whole.isLive_iff] at first second
        exact Option.some.inj (first.symm.trans second)
      · exact ih.one start earlier i j first second
    · intro start d inside
      rcases List.prefix_concat_iff.mp inside with same | earlier
      · obtain ⟨rfl, rfl⟩ := List.append_singleton_inj.mp same
        exact before.follows fits
      · exact ih.next start d earlier

end Conversation

end FantasyConsole
