import TruthExpr.Expr
import TruthExpr.Token

/-! # The token machine — trees from tokens, one token at a time

    The machine keeps what is open in a stack: signs of negation, opening
    parentheses, and the left operands of operators whose right operand is
    still to come.  An operand that is complete closes the negations above
    it and then the conjunction, if there is one; a disjunction is closed
    only by another one, by a parenthesis or by the end. -/

namespace TruthExpr

/-- Something that waits for an operand to be completed. -/
inductive Open where
  | negation
  | group
  | andWith (left : Expr)
  | orWith (left : Expr)
deriving DecidableEq, Repr

/-- What the machine wants next, and what is open. -/
inductive Machine where
  | wantsOperand (stack : List Open)
  /-- `value` is the conjunction that has been read so far. -/
  | wantsOperator (value : Expr) (stack : List Open)
deriving DecidableEq, Repr

namespace Machine

/-- The machine before the first token. -/
def start : Machine := .wantsOperand []

/-- Completes an operand. -/
def closeOperand : Expr → List Open → Machine
  | e, .negation :: stack => closeOperand (.not e) stack
  | e, .andWith l :: stack => .wantsOperator (.and l e) stack
  | e, stack => .wantsOperator e stack

/-- Completes a chain of conjunctions. -/
def closeTerm : Expr → List Open → Expr × List Open
  | e, .orWith l :: stack => (.or l e, stack)
  | e, stack => (e, stack)

/-- The machine after one more token, if it can take the token. -/
def step : Machine → Token → Option Machine
  | .wantsOperand stack, .trueWord => some (closeOperand (.literal true) stack)
  | .wantsOperand stack, .falseWord => some (closeOperand (.literal false) stack)
  | .wantsOperand stack, .bang => some (.wantsOperand (.negation :: stack))
  | .wantsOperand stack, .opening => some (.wantsOperand (.group :: stack))
  | .wantsOperator e stack, .andSign => some (.wantsOperand (.andWith e :: stack))
  | .wantsOperator e stack, .orSign =>
      let (e, stack) := closeTerm e stack
      some (.wantsOperand (.orWith e :: stack))
  | .wantsOperator e stack, .closing =>
      match closeTerm e stack with
      | (e, .group :: stack) => some (closeOperand e stack)
      | _ => none
  | _, _ => none

/-- The tree, if the text may end here. -/
def finish : Machine → Option Expr
  | .wantsOperator e stack =>
      match closeTerm e stack with
      | (e, []) => some e
      | _ => none
  | .wantsOperand _ => none

/-- What is open. -/
def stack : Machine → List Open
  | .wantsOperand stack => stack
  | .wantsOperator _ stack => stack

/-- Some parenthesis is open. -/
def inGroup (m : Machine) : Bool :=
  m.stack.any fun o => o = .group

end Machine

end TruthExpr
