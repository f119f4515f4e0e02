import FantasyConsole.Machine.Basic

/-!
# Pausing

A pause keeps a snapshot of memory and state, which is put back when the pause ends. The time base
is moved on by the length of the pause, so the program does not notice it.
-/

namespace FantasyConsole

namespace Machine

variable {σ : Type}

/-- Whether a pause has begun and not ended. -/
def isPaused (m : Machine σ) : Bool := m.paused.isSome

/-- Begins a pause. In a pause nothing changes: the first snapshot is kept. -/
def pause (m : Machine σ) : Machine σ :=
  match m.paused with
  | some _ => m
  | none =>
    let c := m.console
    let m := { m with paused := some ⟨c.state, c.ram, c.start, c.clock.counter⟩ }
    m.mapConsole fun c =>
      { c with state.overlayPalette := Vector.replicate _ 0 }.log .script .debug "paused"

/-- Ends a pause. -/
def resume (m : Machine σ) : Machine σ :=
  match m.paused with
  | none => m
  | some s =>
    let m := { m with paused := none }
    m.mapConsole fun c =>
      let now := c.clock.counter
      let away := if now ≤ s.pausedAt then 0 else now - s.pausedAt
      let c := { c with state := s.state, ram := s.ram, start := s.start + away }
      c.log .script .debug "resumed"

end Machine

end FantasyConsole
