import TruthExpr.Text.Notation

/-! # Configuration of the service

    Two limits and a log level, each with a default.  The limits may be any
    whole numbers; the level may be written in small letters, and says which
    messages of the service are written down. -/

namespace TruthExpr

namespace Service

/-! ## Log levels -/

/-- The names of the levels; some name the same severity. -/
inductive Level where
  | critical
  | fatal
  | error
  | warn
  | warning
  | info
  | debug
  | notset
deriving DecidableEq, Repr

namespace Level

/-- How the level is written. -/
def name : Level → String
  | .critical => "CRITICAL"
  | .fatal => "FATAL"
  | .error => "ERROR"
  | .warn => "WARN"
  | .warning => "WARNING"
  | .info => "INFO"
  | .debug => "DEBUG"
  | .notset => "NOTSET"

/-- How much a message of the level matters. -/
def severity : Level → Nat
  | .critical => 50
  | .fatal => 50
  | .error => 40
  | .warn => 30
  | .warning => 30
  | .info => 20
  | .debug => 10
  | .notset => 0

/-- All levels. -/
def all : List Level :=
  [.critical, .fatal, .error, .warn, .warning, .info, .debug, .notset]

/-- The level of a name. -/
def ofName? (name : String) : Option Level := all.find? fun l => l.name == name

/-- A log that is kept at level `l` takes messages of level `message`. -/
def admits (l message : Level) : Bool := decide (l.severity ≤ message.severity)

end Level

/-! ## Settings -/

/-- How the service is set up. -/
structure Config where
  /-- The greatest number of characters of an expression. -/
  maxInput : Int := 10000
  /-- The greatest depth of a tree that is returned whole. -/
  maxTreeDepth : Int := 200
  logLevel : Level := .info
deriving DecidableEq, Repr

/-- Why a service cannot be set up. -/
inductive ConfigError where
  | notANumber (text : String)
  | tooManyDigits (count : Nat)
  | unknownLevel (name : String)
deriving DecidableEq, Repr

/-- How much of a text that is no number is shown, quotes and escapes
    counted. -/
def shownLength : Nat := 200

/-- The reason in words. -/
def ConfigError.message : ConfigError → String
  | .notANumber text =>
      "invalid literal for int() with base 10: " ++
        String.ofList ((quoted text).toList.take shownLength)
  | .tooManyDigits count =>
      "Exceeds the limit (" ++ toString Numeral.digitLimit ++
        " digits) for integer string conversion: value has " ++ toString count ++
        " digits; use sys.set_int_max_str_digits() to increase the limit"
  | .unknownLevel name => "Unknown level: " ++ quoted name

namespace Config

/-- A limit that may be set by a text. -/
def limit (default : Int) : Option String → Except ConfigError Int
  | none => .ok default
  | some text =>
      match readInt text with
      | .ok n => .ok n
      | .error .malformed => .error (.notANumber text)
      | .error (.tooLong count) => .error (.tooManyDigits count)

/-- A level that may be set by a text. -/
def level (default : Level) : Option String → Except ConfigError Level
  | none => .ok default
  | some text =>
      match Level.ofName? (uppercase text) with
      | some l => .ok l
      | none => .error (.unknownLevel (uppercase text))

/-- The configuration that the given variables ask for. -/
def load (value? : String → Option String) : Except ConfigError Config := do
  let maxInput ← limit 10000 (value? "BOOLEXPR_MAX_INPUT")
  let maxTreeDepth ← limit 200 (value? "BOOLEXPR_MAX_TREE_DEPTH")
  let logLevel ← level .info (value? "BOOLEXPR_LOG_LEVEL")
  return { maxInput, maxTreeDepth, logLevel }

end Config

end Service

end TruthExpr
