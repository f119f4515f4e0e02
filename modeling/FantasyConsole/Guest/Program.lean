import FantasyConsole.Guest.Api

/-!
# Guest programs

While a guest program has control it reaches the console only through calls, and what it does next
may depend on what the calls returned. Such a program is a tree: each node is a call, with one
branch for every answer, and each leaf is a result.
-/

namespace FantasyConsole

/-- A program that makes finitely many calls and then returns. -/
inductive Guest (α : Type) where
  | done (result : α)
  | call (name : String) (args : List Value) (next : Except Api.CallError Value → Guest α)

namespace Guest

variable {α β : Type}

def run : Guest α → Console → α × Console
  | done result, c => (result, c)
  | call name args next, c =>
    let (answer, c) := Api.call name args c
    (next answer).run c

/-- Goes on with another program. -/
def bind : Guest α → (α → Guest β) → Guest β
  | done result, f => f result
  | call name args next, f => call name args fun answer => (next answer).bind f

instance : Monad Guest where
  pure := done
  bind := bind

theorem run_bind (p : Guest α) (f : α → Guest β) (c : Console) :
    (p.bind f).run c = (f (p.run c).1).run (p.run c).2 := by
  induction p generalizing c with
  | done result => rfl
  | call name args next ih => exact ih _ _

end Guest

end FantasyConsole
