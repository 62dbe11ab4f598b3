import TruthExpr.CommandLine.Switch

/-! # Invocations — what a command line asks for

    Words are taken from left to right.  The expressions are the first run
    of operands that has an option behind it, or else all operands behind
    the last option; any other operand is one too many.  An option takes
    effect when it is met, so that of two faults the first one counts, and a
    call for help before any fault is answered with help. -/

namespace TruthExpr

namespace CommandLine

/-- How the expressions are to be read and printed. -/
structure Settings where
  engine : Engine := .descent
  json : Bool := false
  verbose : Bool := false
deriving DecidableEq, Repr

/-- What a command line asks for. -/
structure Invocation where
  settings : Settings
  expressions : List String
deriving DecidableEq, Repr

/-- Why nothing is read at all. -/
inductive Stop where
  | help
  | misuse (why : Misuse)
  /-- All is in order but for the engine, of which nothing is left. -/
  | noEngine
deriving DecidableEq, Repr

/-- What has been gathered from the words so far. -/
structure Gathered where
  settings : Settings := {}
  expressions : Option (List String) := none
  /-- The run of expressions has not been ended by an option yet. -/
  collecting : Bool := false
  surplus : List String := []
  /-- The engine was last given as two dashes.  These separate words and are
      dropped wherever they stand for a value, which leaves none. -/
  engineDropped : Bool := false
deriving DecidableEq, Repr

namespace Gathered

/-- Takes an operand that has an option somewhere behind it. -/
def addOperand (g : Gathered) (text : String) : Gathered :=
  match g.expressions, g.collecting with
  | none, _ => { g with expressions := some [text], collecting := true }
  | some texts, true => { g with expressions := some (texts ++ [text]) }
  | some _, false => { g with surplus := g.surplus ++ [text] }

/-- Takes the words behind the last option. -/
def addTail (g : Gathered) (words : List Word) : Gathered :=
  match g.expressions, words.filterMap Word.operand? with
  | none, text :: texts => { g with expressions := some (text :: texts) }
  | _, _ => { g with surplus := g.surplus ++ words.map Word.text }

/-- Takes an option without a value. -/
def apply (g : Gathered) : Switch → Except Stop Gathered
  | .help => .error .help
  | .engine => .error (.misuse (.missingValue .engine))
  | .json => .ok { g with settings := { g.settings with json := true } }
  | .verbose => .ok { g with settings := { g.settings with verbose := true } }

/-- Takes the option that chooses the engine. -/
def applyEngine (g : Gathered) (value : String) : Except Stop Gathered :=
  if value = "--" then .ok { g with engineDropped := true }
  else
    match Engine.ofName? value with
    | some engine =>
        .ok { g with settings := { g.settings with engine }, engineDropped := false }
    | none => .error (.misuse (.noSuchEngine value))

/-- Takes several options without values. -/
def applyAll (g : Gathered) (switches : List Switch) : Except Stop Gathered :=
  switches.foldlM apply g

end Gathered

/-- The short options in what is attached to a short option, `switch` being
    the one before them.  A letter that is none is a value nobody asked
    for. -/
def bundled (switch : Switch) : List Char → Except Misuse (List Switch)
  | [] => .ok []
  | letter :: rest =>
      match Switch.ofSpelling? (String.ofList ['-', letter]) with
      | some next => do return next :: (← bundled next rest)
      | none => .error (.ignoredValue switch (String.ofList (letter :: rest)))

/-- Takes an option that needs no value from a word behind it. -/
def applyWritten (g : Gathered) (w : Written) : Except Stop Gathered :=
  match w.attached with
  | none => g.apply w.switch
  | some value =>
      if w.switch.takesValue then g.applyEngine value
      else if w.short && value ≠ "" then
        match bundled w.switch value.toList with
        | .ok switches => g.applyAll (w.switch :: switches)
        | .error why => .error (.misuse why)
      else .error (.misuse (.ignoredValue w.switch value))

/-- Takes all words. -/
def gather : List Word → Gathered → Except Stop Gathered
  | [], g => .ok (g.addTail [])
  | .separator :: rest, g => .ok (g.addTail (.separator :: rest))
  | .operand text :: rest, g =>
      if rest.any Word.isOption then gather rest (g.addOperand text)
      else .ok (g.addTail (.operand text :: rest))
  | .unknown text :: rest, g =>
      gather rest { g with collecting := false, surplus := g.surplus ++ [text] }
  | .option _ ⟨.engine, _, none⟩ :: .operand value :: rest, g => do
      gather rest (← { g with collecting := false }.applyEngine value)
  | .option _ w :: rest, g => do
      gather rest (← applyWritten { g with collecting := false } w)

/-- What a command line asks for. -/
def Invocation.ofWords (args : List String) : Except Stop Invocation :=
  match Word.classifyAll args with
  | .error why => .error (.misuse why)
  | .ok words => do
      let g ← gather words {}
      match g.expressions, g.surplus with
      | none, _ => .error (.misuse .noExpressions)
      | some expressions, [] =>
          if g.engineDropped then .error .noEngine else .ok ⟨g.settings, expressions⟩
      | some _, surplus => .error (.misuse (.unrecognized surplus))

end CommandLine

end TruthExpr
