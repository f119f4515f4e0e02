import FantasyConsole.Log.Logger

/-!
# The host

The host embeds the console. It supplies the time, and it receives what the console has to say: the
console puts its notices into an outbox, in order, and the host takes them out.
-/

namespace FantasyConsole

/-- What the host's clocks show. -/
structure Clock where
  /-- A counter that runs at a fixed frequency. -/
  counter : UInt64 := 0
  /-- Counts in a second. -/
  frequency : UInt64 := 1000
  /-- Seconds since the beginning of 1970. -/
  seconds : UInt64 := 0
deriving DecidableEq, Repr

/-- Something that the console says to its host. -/
inductive Notice where
  | log (entry : Log.Entry)
  /-- A program could not be started. -/
  | error (message : String)
  /-- Output of the program. -/
  | trace (message : String) (color : UInt8)
  /-- The program asked to leave. -/
  | exit
deriving DecidableEq, Repr

/-- A host that forwards what the console says to a logger and remembers the request to leave. -/
structure LoggingHost where
  logger : Log.Logger := {}
  exitRequested : Bool := false

namespace LoggingHost

/-- A colour as the log shows it, at least two characters wide. -/
def colorText (color : UInt8) : String :=
  let digits := toString color.toNat
  if digits.length < 2 then " " ++ digits else digits

/-- The line that a notice becomes, if it becomes one. -/
def entry? : Notice → Option Log.Entry
  | .log entry => some entry
  | .error message => some ⟨.script, .error, message⟩
  | .trace message color => some ⟨.script, .info, "[" ++ colorText color ++ "] " ++ message⟩
  | .exit => none

def receive (h : LoggingHost) (n : Notice) : LoggingHost × List Log.Emission :=
  let h := if n = .exit then { h with exitRequested := true } else h
  match entry? n with
  | none => (h, [])
  | some e =>
    let (logger, lines) := h.logger.log e.category e.level fun _ => e.text
    ({ h with logger := logger }, lines)

/-- Counts in a second of this host's clock: it counts microseconds. -/
def frequency : UInt64 := 1000000

end LoggingHost

end FantasyConsole
