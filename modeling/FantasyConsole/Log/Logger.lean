import FantasyConsole.Log.Level

/-!
# The logger

A logger decides which lines are emitted and where they go. A category has a level of its own or,
while that is off, follows the global level. Each category may emit a bounded number of lines in a
window of time that slides with the clock; what is dropped is counted and summed up in a line of its
own. Instants are numbers of nanoseconds.
-/

namespace FantasyConsole

namespace Log

/-- How many lines a category may emit in a window, unless another limit is set. -/
def defaultLimit : Nat := 60

/-- The length of a window. -/
def window : Nat := 1000000000

/-- What a category has used up in the current window. -/
structure Budget where
  /-- The instants of the lines emitted, the oldest first. -/
  recent : List Nat := []
  /-- Lines dropped since they were last summed up. -/
  dropped : Nat := 0
  /-- The instant at which dropped lines were last summed up. -/
  lastSummary : Option Nat := none
deriving DecidableEq, Repr

/-- The answer to the request for one more line. -/
structure Grant where
  allowed : Bool
  /-- The number of dropped lines, when it is time to sum them up. -/
  summary : Option Nat
deriving DecidableEq, Repr

/-- Forgets the lines at the front that have left the window. -/
def Budget.expire (b : Budget) (now : Nat) : Budget :=
  { b with recent := b.recent.dropWhile fun t => window < now - t }

/-- Takes one more line into account, emitted or dropped. -/
def Budget.spend (b : Budget) (allowed : Bool) (now : Nat) : Budget :=
  if allowed then { b with recent := b.recent ++ [now] } else { b with dropped := b.dropped + 1 }

/-- Whether dropped lines are to be summed up: as soon as a line is allowed again, or once in a
window while none is. -/
def Budget.isDue (b : Budget) (allowed : Bool) (now : Nat) : Bool :=
  0 < b.dropped && (allowed || b.lastSummary.all fun t => window ≤ now - t)

/-- Asks for one more line. -/
def Budget.request (b : Budget) (limit now : Nat) : Budget × Grant :=
  let b := b.expire now
  let allowed := b.recent.length < limit
  let b := b.spend allowed now
  if b.isDue allowed now then
    ({ b with dropped := 0, lastSummary := some now }, ⟨allowed, some b.dropped⟩)
  else
    (b, ⟨allowed, none⟩)

/-- A file that lines are appended to. -/
structure Target where
  /-- Whether writing to the file succeeds. -/
  accepts : Bool
deriving DecidableEq, Repr

/-- Where a line ends up. -/
inductive Destination where
  | standardError
  | file
deriving DecidableEq, Repr

/-- A line that is written. -/
structure Emission where
  destination : Destination
  line : String
deriving DecidableEq, Repr

structure Logger where
  globalLevel : Level := .off
  levels : Vector Level categoryCount := Vector.replicate _ .off
  limit : Nat := defaultLimit
  budgets : Vector Budget categoryCount := Vector.replicate _ {}
  /-- The file that lines go to, if one is set. -/
  target : Option Target := none
  /-- The present instant. -/
  now : Nat := 0
deriving DecidableEq

namespace Logger

def setGlobalLevel (l : Logger) (level : Level) : Logger := { l with globalLevel := level }

/-- The category's own level. -/
def level (l : Logger) (c : Category) : Level := l.levels[c.index]

/-- Gives a category a level of its own. -/
def setLevel (l : Logger) (c : Category) (level : Level) : Logger :=
  { l with levels := l.levels.set c.index level }

/-- The category's budget. -/
def budget (l : Logger) (c : Category) : Budget := l.budgets[c.index]

def setBudget (l : Logger) (c : Category) (b : Budget) : Logger :=
  { l with budgets := l.budgets.set c.index b }

@[simp] theorem budget_setBudget_self (l : Logger) (c : Category) (b : Budget) :
    (l.setBudget c b).budget c = b :=
  Vector.getElem_set_self _

theorem budget_setBudget_of_ne (l : Logger) {c d : Category} (other : d ≠ c) (b : Budget) :
    (l.setBudget c b).budget d = l.budget d :=
  Vector.getElem_set_ne c.index.isLt d.index.isLt fun same =>
    other (Category.index_injective (Fin.ext same)).symm

def threshold (l : Logger) (c : Category) : Level :=
  match l.level c with
  | .off => l.globalLevel
  | own => own

def isEnabled (l : Logger) (c : Category) (level : Level) : Bool :=
  level ≠ .off && level.rank ≤ (l.threshold c).rank

/-- Turns every level off. The file and the limit stay. -/
def silence (l : Logger) : Logger :=
  { l with globalLevel := .off, levels := Vector.replicate _ .off }

/-- Sends lines to a file, or to standard error again. -/
def setTarget (l : Logger) (target : Option Target) : Logger := { l with target := target }

/-- Where a line ends up: a file that does not accept it loses it to standard error. -/
def destination (l : Logger) : Destination :=
  match l.target with
  | some ⟨true⟩ => .file
  | _ => .standardError

/-- The line that sums up dropped lines. -/
def summaryLine (c : Category) (dropped : Nat) : String :=
  s!"[{c.name}] rate limit hit, {dropped} line(s) dropped"

/-- Asks whether a line of a category and level may be emitted. -/
def request (l : Logger) (c : Category) (level : Level) : Logger × Grant :=
  if l.isEnabled c level then
    let (b, grant) := (l.budget c).request l.limit l.now
    (l.setBudget c b, grant)
  else
    (l, ⟨false, none⟩)

/-- Logs a line: the summary of dropped lines comes first, if it is due. The text is only built when
the line is emitted. -/
def log (l : Logger) (c : Category) (level : Level) (text : Unit → String) :
    Logger × List Emission :=
  let (l, grant) := l.request c level
  let summary := grant.summary.toList.map (summaryLine c)
  let line := if grant.allowed then [text ()] else []
  (l, (summary ++ line).map (⟨l.destination, ·⟩))

end Logger

end Log

end FantasyConsole
