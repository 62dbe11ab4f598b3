import TruthExpr.CommandLine.Invocation
import TruthExpr.Expr.View

/-! # Reports — what a run of the program prints

    Every expression is reported on its own, in order: its tree to the
    output, or why it has none to the error output.  The exit status is 1
    when some expression could not be printed, and 2 when the command line
    itself could not be understood.  A run that is left without an engine
    breaks down and reports nothing.

    What is not the program's own is a HOST: the reader behind the engine of
    tokens, and how deep an object may nest to be written.  Every report is
    made on some host. -/

namespace TruthExpr

/-- What a run prints, and its exit status. -/
structure Report where
  output : String := ""
  errors : String := ""
  status : Nat := 0
deriving DecidableEq, Repr

namespace Report

/-- One report behind another; the worse status counts. -/
def append (r s : Report) : Report :=
  ⟨r.output ++ s.output, r.errors ++ s.errors, max r.status s.status⟩

end Report

namespace CommandLine

/-- What the program is called. -/
def programName : String := "boolexpr"

/-- The short description of the command line. -/
def usage : String :=
  "usage: boolexpr [-h] [--engine \x7bcombinator,lark\x7d] [--json] [-v]\n" ++
  "                expressions [expressions ...]\n"

/-- The long description of the command line. -/
def help : String :=
  usage ++
  "\nParse boolean expressions\n" ++
  "\npositional arguments:\n" ++
  "  expressions           expressions to parse (no whitespace)\n" ++
  "\noptions:\n" ++
  "  -h, --help            show this help message and exit\n" ++
  "  --engine \x7bcombinator,lark\x7d\n" ++
  "  --json                print the tree as JSON\n" ++
  "  -v, --verbose\n"

/-- The note that an expression is about to be read. -/
def trace (s : Settings) (text : String) : String :=
  if s.verbose then
    "DEBUG boolexpr.cli: parsing " ++ quoted text ++ " with " ++ s.engine.name ++ "\n"
  else ""

/-- What a run is given by the system it runs on. -/
structure Host where
  /-- What reads a text for the engine of tokens. -/
  tokenReader : Reader
  /-- How deep objects may nest to be written.  An interpreter writes them by
      recursion and gives up when its stack is full, so this depends on how
      large the stack is, and on how much of it is in use. -/
  jsonDepth : Nat

/-- A host that has been measured: it reads tokens as the token machine does,
    and had room for 990 objects in one another. -/
def Host.measured : Host := ⟨Machine.readExpr, 990⟩

/-- The report on a tree. -/
def reportTree (host : Host) (s : Settings) (e : Expr) : Report :=
  if s.json then
    if e.toJson.objectDepth ≤ host.jsonDepth then { output := e.toJson.written ++ "\n" }
    else
      { errors := "error: tree too deep for JSON output, drop --json for the text tree\n"
        status := 1 }
  else { output := e.outline Expr.usualIndent ++ "\n" }

/-- The report on a text that could not be read. -/
def reportError (e : ReadError) : Report :=
  { errors := "error: " ++ e.message ++ " (at " ++ toString e.position ++ ")\n"
    status := 1 }

/-- The report on one expression. -/
def reportOne (host : Host) (s : Settings) (text : String) : Report :=
  Report.append { errors := trace s text } <|
    match s.engine.read text host.tokenReader with
    | .ok e => reportTree host s e
    | .error e => reportError e

/-- The reports on all expressions in order. -/
def reportAll (host : Host) (s : Settings) : List String → Report
  | [] => {}
  | text :: rest => (reportOne host s text).append (reportAll host s rest)

/-- Why a run ends without a report. -/
inductive Breakdown where
  /-- There is no engine to read with. -/
  | noEngine
deriving DecidableEq, Repr

/-- The reason in words. -/
def Breakdown.message : Breakdown → String
  | .noEngine => "unhashable type: 'list'"

/-- The report of a run with the given words. -/
def run (args : List String) (host : Host := .measured) : Except Breakdown Report :=
  match Invocation.ofWords args with
  | .ok invocation => .ok (reportAll host invocation.settings invocation.expressions)
  | .error .help => .ok { output := help }
  | .error (.misuse why) =>
      .ok
        { errors := usage ++ programName ++ ": error: " ++ why.message ++ "\n"
          status := 2 }
  | .error .noEngine => .error .noEngine

end CommandLine

end TruthExpr
