import FantasyConsole.Proofs.Machine.FailedStart

/-!
# The protocol between a machine and its interpreters

A machine calls its interpreters in an order that they can rely on: one of them is started, then only
that one is called, and it is closed before another is started. A program that cannot be started is
reported once, and nothing is called after that until a cart is loaded.

## Main result

`Machine.history_follows_protocol`: both hold of every run in which no pause ends, whatever the guest
programs do and wherever they reset the console.
-/

namespace FantasyConsole

namespace Machine

variable {σ : Type}

/-- What a machine with recording interpreters writes down in a run without the end of a pause, with
carts and inputs, frames and hooks, resets by the host and by the guest programs, in any order. It
ends like the machine without recording. At every moment at most one interpreter is live, none is
started while one is live, and every other call goes to the live one. If a start fails in an
operation, one error is reported, and until a cart is loaded no interpreter is called and no error
reported.

A run that ends in a fault has called what the operations before the fault have called, by
`Op.calls_of_fault`. -/
theorem history_follows_protocol (config : Config) (clock : Clock) (guest : σ) {ops : List (Op σ)}
    (steady : .resume ∉ ops) {m : Machine σ} (ran : (new config clock guest).run ops = .ok m) :
    ((new config clock guest).recorded []).run (recordAll 0 ops) =
      .ok (m.recorded ((new config clock guest).history ops)) ∧
    Orderly ((new config clock guest).history ops) ∧
    ∀ before op after, ops = before ++ op :: after → (∀ cart, .loadCart cart ∉ after) →
      ∀ m₁ m₂, (new config clock guest).run before = .ok m₁ → op.step m₁ = .ok m₂ →
      ∀ calls upTo, (new config clock guest).history (before ++ [op]) =
          (new config clock guest).history before ++ calls →
        FailedStart op m₁ calls upTo →
        (new config clock guest).history ops =
            (new config clock guest).history before ++ upTo ∧
          (∃ e : StartError, m₂.console.errors = m₁.console.errors ++ [e.message]) ∧
          m.console.errors = m₂.console.errors := by
  have coherent := coherent_new config clock guest
  refine ⟨?_, ?_, ?_⟩
  · rw [history_eq ran]
    exact run_recorded ran []
  · rw [history_eq ran]
    exact (converses_run coherent steady ran).orderly
  · intro before op after parts unchanged m₁ m₂ earlier stepped calls upTo grown failed
    subst parts
    -- what the operation added to the history are its calls
    have whole : m₁.run [op] = .ok m₂ := by rw [Machine.run, stepped]; rfl
    have first := (run_append earlier [op]).trans whole
    rw [history_eq first, history_eq earlier, runCalls_append earlier, runCalls_cons stepped,
      runCalls, List.append_nil] at grown
    have made : op.calls m₁ = calls := List.append_cancel_left grown
    rw [List.mem_append, List.mem_cons, not_or, not_or] at steady
    -- the run passes through the machines before and after the operation
    obtain ⟨between, reached, later⟩ := run_append_inv ran
    obtain rfl : m₁ = between := Except.ok.inj (earlier.symm.trans reached)
    obtain ⟨next, again, rest⟩ := run_cons_inv later
    obtain rfl : m₂ = next := Except.ok.inj (stepped.symm.trans again)
    have now : m₁.Coherent := coherent_run earlier
    obtain ⟨heard, reported, kept⟩ := FailedStart.run now (made ▸ failed) stepped steady.2.2
      unchanged rest
    refine ⟨?_, reported, kept⟩
    rw [history_eq ran, history_eq earlier, runCalls_append earlier, heard]

/-- A cart without text is reported in its first frame; after that, not even a frame and a menu entry
have any effect that is heard. -/
theorem blank_reported_once :
    let start : Machine Unit := new {} {} ()
    let inserted := start.loadCart Cart.blank
    start.history [.loadCart Cart.blank, .tick, .tick, .menu 0] = start.history [.loadCart Cart.blank] ∧
      ∃ e : StartError, (inserted.tick.tick.menu 0).console.errors =
        inserted.console.errors ++ [e.message] := by
  intro start inserted
  have steady : (.resume : Op Unit) ∉ [.loadCart Cart.blank, .tick, .tick, .menu 0] := by simp
  have unchanged (cart : Cart) : (.loadCart cart : Op Unit) ∉ [.tick, .menu 0] := by simp
  have fresh := (start.inserts_loadCart Cart.blank).lifecycle
  have first : start.run [.loadCart Cart.blank] = .ok inserted := rfl
  have second : start.run ([.loadCart Cart.blank] ++ [.tick]) = .ok inserted.tick := rfl
  have grown : start.history ([.loadCart Cart.blank] ++ [.tick]) =
      start.history [.loadCart Cart.blank] ++ inserted.runCalls [.tick] := by
    rw [history_eq second, history_eq first]
    exact runCalls_append first [.tick]
  obtain ⟨_, _, quiet⟩ := history_follows_protocol {} {} () steady (m := inserted.tick.tick.menu 0) rfl
  obtain ⟨heard, ⟨e, reported⟩, kept⟩ := quiet [.loadCart Cart.blank] .tick [.tick, .menu 0] rfl
    unchanged inserted inserted.tick first rfl _ [] grown
    (.emptyCode ⟨.inl rfl, congrArg Lifecycle.phase fresh, congrArg Lifecycle.rejected fresh⟩ rfl)
  refine ⟨?_, e, kept.trans reported⟩
  rw [heard, List.append_nil]

end Machine

end FantasyConsole
