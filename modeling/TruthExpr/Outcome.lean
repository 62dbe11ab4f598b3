import TruthExpr.Failure
import TruthExpr.Text.Cursor

/-! # Outcomes — what running a parser comes to

    A parser matches, fails or is aborted.  A failure is part of normal
    work; an abort is not: it means that the parser was put together wrongly
    or that the expression nests deeper than it may, and no alternative is
    tried after it. -/

namespace TruthExpr

/-- Why a run was given up altogether. -/
inductive Fault where
  /-- A choice without alternatives has no failure to report. -/
  | noAlternatives
  /-- A chain of operands and operators must have odd length. -/
  | unfinishedChain (items : Nat)
  /-- An operator stands where an operand should. -/
  | misplacedItem
  /-- What was to be folded cannot hold any items. -/
  | notARow (typeName : String)
  /-- A value that is no operator stands where an operator should. -/
  | notAnOperator (typeName : String)
  /-- What was to be folded has named members, none of them the first. -/
  | noFirstItem
  /-- A repetition goes on without getting any further in the text. -/
  | endlessRepetition
  /-- The nesting allowance is spent. -/
  | nestedTooDeeply
deriving DecidableEq, Repr

/-- The fault in words. -/
def Fault.message : Fault → String
  | .noAlternatives => "merge needs at least one failure"
  | .unfinishedChain items =>
      "expected an odd-length operand/operator sequence, got " ++ toString items ++ " items"
  | .misplacedItem => "operands and operators do not alternate"
  | .notARow typeName => "object of type '" ++ typeName ++ "' has no len()"
  | .notAnOperator typeName => "'" ++ typeName ++ "' object has no attribute 'build'"
  | .noFirstItem => "0"
  | .endlessRepetition => "repetition without progress"
  | .nestedTooDeeply => "a less deeply nested expression"

/-- What running a parser comes to. -/
inductive Outcome (α : Type) where
  /-- It matched: the value, and the cursor behind the match. -/
  | parsed (value : α) (next : Cursor)
  | failed (failure : Failure)
  | aborted (fault : Fault)
deriving Repr

namespace Outcome

/-- Changes the value of a match; the change itself may be at fault. -/
def tryMap {α β : Type} (f : α → Except Fault β) : Outcome α → Outcome β
  | .parsed value next =>
      match f value with
      | .ok result => .parsed result next
      | .error fault => .aborted fault
  | .failed failure => .failed failure
  | .aborted fault => .aborted fault

/-- Changes the value of a match. -/
def map {α β : Type} (f : α → β) : Outcome α → Outcome β
  | .parsed value next => .parsed (f value) next
  | .failed failure => .failed failure
  | .aborted fault => .aborted fault

/-- Changes a failure. -/
def mapFailure {α : Type} (f : Failure → Failure) : Outcome α → Outcome α
  | .parsed value next => .parsed value next
  | .failed failure => .failed (f failure)
  | .aborted fault => .aborted fault

end Outcome

end TruthExpr
