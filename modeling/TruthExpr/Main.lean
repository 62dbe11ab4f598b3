import TruthExpr.CommandLine.Report

/-! # The program -/

/-- Reads the expressions of the command line and prints the report on them. -/
def main (args : List String) : IO UInt32 := do
  match TruthExpr.CommandLine.run args with
  | .ok report =>
      IO.eprint report.errors
      IO.print report.output
      return UInt32.ofNat report.status
  | .error breakdown =>
      IO.eprintln breakdown.message
      return 1
