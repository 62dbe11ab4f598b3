/-! # Failures — why a reader could not go on

    A failure is an ordinary value: a reader hands it to its caller, who
    drops it and tries something else, or adds its own frame and passes it
    on.  `merge` is what remains when every alternative of a choice has
    failed: one expectation per alternative, at the furthest position. -/

namespace TruthExpr

/-- A grammar rule that was active when a reader failed, and where it began. -/
structure Frame where
  label : String
  position : Int
deriving DecidableEq, Repr

/-- Why a reader could not match: what it would have accepted at `position`,
    and the rules that were active, innermost first. -/
structure Failure where
  expected : List String
  position : Int
  frames : List Frame := []
  /-- The text left over after a complete expression, if that is the fault. -/
  remainder : Option String := none
  /-- A committed failure keeps the enclosing choice from trying on. -/
  committed : Bool := false
deriving DecidableEq, Repr

namespace Failure

/-- The failure as seen from one more active rule. -/
def within (f : Failure) (label : String) (position : Int) : Failure :=
  { f with frames := f.frames ++ [⟨label, position⟩] }

/-- Marks a failure so that the enclosing choice gives up with it. -/
def commit (f : Failure) : Failure :=
  { f with committed := true }

/-- Takes the mark away again. -/
def release (f : Failure) : Failure :=
  { f with committed := false }

/-- The active rules in words; empty when there are none. -/
def context : List Frame → String
  | [] => ""
  | f :: rest =>
      rest.foldl (fun text g => text ++ ", followed by " ++ g.label)
        (" while processing " ++ f.label)

/-- The alternatives and the active rules as one phrase. -/
def describe (f : Failure) : String :=
  " or ".intercalate f.expected ++ context f.frames

/-- What the user is told. -/
def message (f : Failure) : String :=
  match f.remainder with
  | some rest => "could not parse " ++ rest
  | none => "expected " ++ f.describe

/-- A complete expression was read, but text is left over. -/
def trailing (remainder : String) (position : Int) : Failure :=
  { expected := ["end of input"], position, remainder := some remainder }

/-- The furthest position among a failure and others. -/
def furthest (start : Int) (others : List Failure) : Int :=
  others.foldl (fun position f => max position f.position) start

/-- One failure for several: each becomes an expectation of its own, said
    once and in order of first occurrence; rules and marks are forgotten. -/
def merge (first : Failure) (others : List Failure) : Failure :=
  { expected := ((first :: others).map describe).eraseDups
    position := furthest first.position others }

/-- `merge` for a list that may be empty, which has no merged failure. -/
def merge? : List Failure → Option Failure
  | [] => none
  | f :: rest => some (merge f rest)

/-- Two failures agree when they expect the same in the same place and under
    the same rules; the left-over text and the mark do not count. -/
def agrees (f g : Failure) : Bool :=
  f.expected == g.expected && f.position == g.position && f.frames == g.frames

end Failure

end TruthExpr
