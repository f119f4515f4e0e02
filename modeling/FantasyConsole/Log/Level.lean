/-!
# Log levels and categories

A line of the log has a category, the part of the console it comes from, and a level. Both can be
read from text, in which the case of letters does not matter.
-/

namespace FantasyConsole

namespace Log

inductive Level where
  | off
  | error
  | warn
  | info
  | debug
  | trace
deriving DecidableEq, Repr

namespace Level

/-- The place of the level, from the quietest on. -/
def rank : Level → Nat
  | off => 0
  | error => 1
  | warn => 2
  | info => 3
  | debug => 4
  | trace => 5

/-- The name in a configuration. -/
def keyword : Level → String
  | off => "off"
  | error => "error"
  | warn => "warn"
  | info => "info"
  | debug => "debug"
  | trace => "trace"

/-- The level that a configuration names. -/
def ofKeyword? (s : String) : Option Level :=
  [off, error, warn, info, debug, trace].find? (·.keyword == s)

/-- The level with a name or digit. -/
def parse? (s : String) : Option Level :=
  match s.toLower with
  | "off" | "0" => some off
  | "error" | "err" | "1" => some error
  | "warn" | "warning" | "2" => some warn
  | "info" | "3" => some info
  | "debug" | "4" => some debug
  | "trace" | "5" => some trace
  | _ => none

end Level

/-- The part of the console that a line comes from. -/
inductive Category where
  | memory
  | sync
  | raster
  | input
  | sound
  | script
deriving DecidableEq, Repr

abbrev categoryCount : Nat := 6

namespace Category

def all : List Category := [memory, sync, raster, input, sound, script]

/-- The place of the category. -/
def index : Category → Fin categoryCount
  | memory => 0
  | sync => 1
  | raster => 2
  | input => 3
  | sound => 4
  | script => 5

/-- The name in messages. -/
def name : Category → String
  | memory => "Memory"
  | sync => "Sync"
  | raster => "Raster"
  | input => "Input"
  | sound => "Sound"
  | script => "Script"

/-- The category with a name. -/
def parse? (s : String) : Option Category :=
  match s.toLower with
  | "memory" | "mem" => some memory
  | "sync" => some sync
  | "raster" | "video" => some raster
  | "input" => some input
  | "sound" | "audio" => some sound
  | "script" => some script
  | _ => none

theorem index_injective {a b : Category} (h : a.index = b.index) : a = b := by
  cases a <;> cases b <;> first | rfl | exact absurd h (by decide)

end Category

/-- A line of the log. -/
structure Entry where
  category : Category
  level : Level
  text : String
deriving DecidableEq, Repr

end Log

end FantasyConsole
