import TruthExpr.Reading
import TruthExpr.Text.Notation

/-! # Switches — which words of a command line are options, and which

    A word that begins with a dash is an option unless it is a single dash,
    looks like a negative number or contains a blank.  A long option may be
    cut short as long as no other begins the same way; a value may be
    attached to a long option by an equals sign, and to a short one also
    directly. -/

namespace TruthExpr

namespace CommandLine

/-- The options. -/
inductive Switch where
  | help
  | engine
  | json
  | verbose
deriving DecidableEq, Repr

namespace Switch

/-- All ways to write an option, in order. -/
def spellings : List (String × Switch) :=
  [("-h", .help), ("--help", .help), ("--engine", .engine), ("--json", .json),
    ("-v", .verbose), ("--verbose", .verbose)]

/-- The option that is written like this, in full. -/
def ofSpelling? (text : String) : Option Switch := spellings.lookup text

/-- What the option is called in messages. -/
def title : Switch → String
  | .help => "-h/--help"
  | .engine => "--engine"
  | .json => "--json"
  | .verbose => "-v/--verbose"

/-- The option is followed by a value. -/
def takesValue (s : Switch) : Bool := s = .engine

end Switch

/-- An option as it was written. -/
structure Written where
  switch : Switch
  /-- It was written with one dash and one letter. -/
  short : Bool
  /-- What is attached to it. -/
  attached : Option String
deriving DecidableEq, Repr

/-- What a word of a command line is. -/
inductive Word where
  | operand (text : String)
  | option (text : String) (written : Written)
  /-- It looks like an option, but there is none of that name. -/
  | unknown (text : String)
  /-- Two dashes: all words behind them are operands. -/
  | separator
deriving DecidableEq, Repr

namespace Word

/-- The word as it was written. -/
def text : Word → String
  | .operand text => text
  | .option text _ => text
  | .unknown text => text
  | .separator => "--"

/-- The word itself, if it is an operand. -/
def operand? : Word → Option String
  | .operand text => some text
  | _ => none

/-- The word stands for an option, known or not. -/
def isOption : Word → Bool
  | .option _ _ => true
  | .unknown _ => true
  | _ => false

end Word

/-- Why a command line is refused. -/
inductive Misuse where
  | ambiguous (text : String) (candidates : List String)
  | ignoredValue (switch : Switch) (value : String)
  | missingValue (switch : Switch)
  | noSuchEngine (value : String)
  | noExpressions
  | unrecognized (words : List String)
deriving DecidableEq, Repr

/-- The refusal in words. -/
def Misuse.message : Misuse → String
  | .ambiguous text candidates =>
      "ambiguous option: " ++ text ++ " could match " ++ ", ".intercalate candidates
  | .ignoredValue switch value =>
      "argument " ++ switch.title ++ ": ignored explicit argument " ++ quoted value
  | .missingValue switch => "argument " ++ switch.title ++ ": expected one argument"
  | .noSuchEngine value =>
      "argument " ++ Switch.title .engine ++ ": invalid choice: " ++ quoted value ++
        " (choose from " ++ ", ".intercalate (Engine.all.map fun e => quoted e.name) ++ ")"
  | .noExpressions => "the following arguments are required: expressions"
  | .unrecognized words => "unrecognized arguments: " ++ " ".intercalate words

namespace Word

/-- One or more digits, and at most a final line break behind them. -/
def isDigitRow (s : List Char) : Bool :=
  match s.span isDigit with
  | ([], _) => false
  | (_, rest) => rest = [] || rest = ['\n']

/-- The text is a dash and a whole number or a decimal fraction. -/
def isNegativeNumber : List Char → Bool
  | '-' :: s =>
      isDigitRow s ||
        match s.dropWhile isDigit with
        | '.' :: fraction => isDigitRow fraction
        | _ => false
  | _ => false

/-- The text before the first equals sign, and the one behind it if there is
    an equals sign. -/
def cut (s : List Char) : String × Option String :=
  match s.span (· ≠ '=') with
  | (before, _ :: behind) => (String.ofList before, some (String.ofList behind))
  | (before, []) => (String.ofList before, none)

/-- The options that a text may be a shorter form of, each with its spelling. -/
def candidates (s : List Char) : List (String × Written) :=
  match s with
  | '-' :: '-' :: _ =>
      let (lead, attached) := cut s
      (Switch.spellings.filter fun (spelling, _) => spelling.startsWith lead).map
        fun (spelling, switch) => (spelling, ⟨switch, false, attached⟩)
  | '-' :: letter :: rest =>
      (Switch.spellings.filter fun (spelling, _) => spelling == String.ofList ['-', letter]).map
        fun (spelling, switch) => (spelling, ⟨switch, true, some (String.ofList rest)⟩)
  | _ => []

/-- What a word is that stands before any separator. -/
def classify (text : String) : Except Misuse Word :=
  let s := text.toList
  match s with
  | '-' :: behind =>
      let short := behind.head? ≠ some '-'
      match Switch.ofSpelling? text with
      | some switch => .ok (.option text ⟨switch, short, none⟩)
      | none =>
          if behind = [] then .ok (.operand text)
          else
            match cut s with
            | (before, attached) =>
                match Switch.ofSpelling? before with
                | some switch => .ok (.option text ⟨switch, short, attached⟩)
                | none =>
                    match candidates s with
                    | [(_, written)] => .ok (.option text written)
                    | [] =>
                        if isNegativeNumber s || s.contains ' ' then .ok (.operand text)
                        else .ok (.unknown text)
                    | several => .error (.ambiguous text (several.map (·.1)))
  | _ => .ok (.operand text)

/-- What the words of a command line are. -/
def classifyAll : List String → Except Misuse (List Word)
  | [] => .ok []
  | text :: rest =>
      if text = "--" then .ok (.separator :: rest.map .operand)
      else do
        let word ← classify text
        let words ← classifyAll rest
        return word :: words

end Word

end CommandLine

end TruthExpr
