/-! # Boolean expressions — the trees every other module reads, prints or measures

    A tree is a truth value, a negation, or two trees joined by one of the
    two operators.  Parentheses of a text leave no trace in its tree: they
    only decide its shape. -/

namespace TruthExpr

/-- The two ways to join expressions. -/
inductive Operator where
  | and
  | or
deriving DecidableEq, Repr

/-- An expression over the two truth values. -/
inductive Expr where
  | literal (value : Bool)
  | not (operand : Expr)
  | and (left right : Expr)
  | or (left right : Expr)
deriving DecidableEq, Repr

namespace Operator

/-- How the operator is written in a text. -/
def symbol : Operator → String
  | .and => "&&"
  | .or => "||"

/-- The tree that joins two operands. -/
def build : Operator → Expr → Expr → Expr
  | .and, left, right => .and left right
  | .or, left, right => .or left right

end Operator

namespace Expr

/-- What sort of node the root is. -/
def typeName : Expr → String
  | .literal _ => "Literal"
  | .not _ => "Not"
  | .and _ _ => "And"
  | .or _ _ => "Or"

/-- How a truth value is written. -/
def word : Bool → String
  | true => "true"
  | false => "false"

end Expr

end TruthExpr
