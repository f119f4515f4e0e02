import FantasyConsole.Json.Parser
import FantasyConsole.Json.Printer
import FantasyConsole.Log.Logger
import FantasyConsole.Palette

/-!
# Configuration

A configuration is read from a JSON document. Settings that are missing keep their defaults, names
that are not known are ignored, and a setting must not be given twice. The settings may also be
written as an array, in the order in which they are declared here.
-/

namespace FantasyConsole

structure Config where
  /-- Samples in a second of audio. -/
  sampleRate : UInt32 := 44100
  pixelFormat : PixelFormat := .rgba8888
  logLevel : Log.Level := .off
  /-- The file that log lines go to, if one is set. -/
  logFile : Option String := none
deriving DecidableEq, Repr

/-- Why a configuration was refused. -/
inductive ConfigError where
  /-- The document is not JSON, or is no configuration. -/
  | malformed
  | sampleRate (rate : UInt32)
  /-- The log file cannot be opened. -/
  | logFile (path : String)
deriving DecidableEq, Repr

/-- What a refusal says; the details of a malformed document and of a file are left open. -/
def ConfigError.message : ConfigError → String
  | .malformed => "invalid config"
  | .sampleRate rate => s!"sample rate {rate.toNat} out of range (8000..=192000)"
  | .logFile path => s!"cannot open log file {path}"

def PixelFormat.keyword : PixelFormat → String
  | .rgba8888 => "rgba8888"
  | .bgra8888 => "bgra8888"

def PixelFormat.ofKeyword? (s : String) : Option PixelFormat :=
  [PixelFormat.rgba8888, .bgra8888].find? (·.keyword == s)

namespace Config

/-- A keyword: a text, or an object whose only member has that name and the value null. -/
def keyword? : Json → Option String
  | .str s => s
  | .obj [(name, .null)] => name
  | _ => none

/-- The settings, in the order of an array. -/
def settings : List String := ["sample_rate", "pixel_format", "log_level", "log_file"]

/-- Changes one setting; names that are not known change nothing. -/
def set? (c : Config) (name : String) (value : Json) : Option Config :=
  match name with
  | "sample_rate" => do return { c with sampleRate := ← value.word? }
  | "pixel_format" => do
    return { c with pixelFormat := ← PixelFormat.ofKeyword? (← keyword? value) }
  | "log_level" => do return { c with logLevel := ← Log.Level.ofKeyword? (← keyword? value) }
  | "log_file" =>
    match value with
    | .null => some { c with logFile := none }
    | .str (some path) => some { c with logFile := some path }
    | _ => none
  | _ => some c

/-- Changes settings one after the other. -/
def setAll? (c : Config) (members : List (String × Json)) : Option Config :=
  members.foldlM (fun c (name, value) => c.set? name value) c

/-- The configuration that a document stands for, before it is checked. -/
def ofJson? : Json → Option Config
  | .obj members => do
    let members ← members.mapM fun (name, value) => name.map (·, value)
    let given := (members.map (·.1)).filter (settings.contains ·)
    if given.eraseDups.length = given.length then setAll? {} members else none
  | .arr items =>
    if items.length ≤ settings.length then setAll? {} (settings.zip items) else none
  | _ => none

/-- Checks the sample rate. -/
def validate (c : Config) : Except ConfigError Unit :=
  if 8000 ≤ c.sampleRate.toNat ∧ c.sampleRate.toNat ≤ 192000 then .ok ()
  else .error (.sampleRate c.sampleRate)

/-- Reads and checks a configuration. -/
def parse (text : String) : Except ConfigError Config := do
  let some c := (Json.parse? text).bind ofJson? | throw .malformed
  c.validate
  return c

def toJson (c : Config) : Json :=
  .object
    [("sample_rate", .nat c.sampleRate.toNat),
     ("pixel_format", .text c.pixelFormat.keyword),
     ("log_level", .text c.logLevel.keyword),
     ("log_file", match c.logFile with
       | some path => .text path
       | none => .null)]

/-- The configuration as a document. -/
def render (c : Config) : String := c.toJson.render

/-- Sends the log where the configuration says and sets its global level; `openFile` opens a file by
its path. When the file cannot be opened the logger stays as it is. -/
def applyLogging (c : Config) (openFile : String → Option Log.Target) (l : Log.Logger) :
    Except ConfigError Log.Logger :=
  match c.logFile with
  | none => .ok ((l.setTarget none).setGlobalLevel c.logLevel)
  | some path =>
    match openFile path with
    | none => .error (.logFile path)
    | some target => .ok ((l.setTarget (some target)).setGlobalLevel c.logLevel)

end Config

end FantasyConsole
