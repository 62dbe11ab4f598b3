import TruthExpr.Expr

/-! # Derivations — which texts are expressions, and of which trees

    The grammar as a relation between characters and trees, with no reader in
    sight:

        expr   := term ("||" term)*
        term   := factor ("&&" factor)*
        factor := "!" factor | "(" expr ")" | "true" | "false"

    A chain that has one more operand is a chain, an operator and an operand,
    so the tree of a chain leans to the left.  Parentheses leave no trace.
    What the readers accept is compared with this relation, and so are the
    texts that trees are printed as. -/

namespace TruthExpr

/-- The rules of the grammar. -/
inductive Level where
  | expr
  | term
  | factor
deriving DecidableEq, Repr

/-- `Derives level s e`: the rule derives the text `s`, and its tree is `e`. -/
inductive Derives : Level → List Char → Expr → Prop where
  | trueWord : Derives .factor "true".toList (.literal true)
  | falseWord : Derives .factor "false".toList (.literal false)
  | negation {s : List Char} {e : Expr} :
      Derives .factor s e → Derives .factor ("!".toList ++ s) (.not e)
  | group {s : List Char} {e : Expr} :
      Derives .expr s e → Derives .factor ("(".toList ++ s ++ ")".toList) e
  | ofFactor {s : List Char} {e : Expr} : Derives .factor s e → Derives .term s e
  | and {s t : List Char} {l r : Expr} :
      Derives .term s l → Derives .factor t r → Derives .term (s ++ "&&".toList ++ t) (.and l r)
  | ofTerm {s : List Char} {e : Expr} : Derives .term s e → Derives .expr s e
  | or {s t : List Char} {l r : Expr} :
      Derives .expr s l → Derives .term t r → Derives .expr (s ++ "||".toList ++ t) (.or l r)

/-- A text that is an expression. -/
def Sentence (s : List Char) : Prop := ∃ e, Derives .expr s e

/-- The rule of the chains of an operator. -/
def Operator.level : Operator → Level
  | .and => .term
  | .or => .expr

/-- The rule of the operands in such chains. -/
def Operator.operandLevel : Operator → Level
  | .and => .factor
  | .or => .term

namespace Derives

/-- An operand alone is a chain. -/
theorem single {op : Operator} {s : List Char} {e : Expr}
    (h : Derives op.operandLevel s e) : Derives op.level s e := by
  cases op with
  | and => exact .ofFactor h
  | or => exact .ofTerm h

/-- A chain goes on with an operator and an operand. -/
theorem join {op : Operator} {s t : List Char} {l r : Expr}
    (hl : Derives op.level s l) (hr : Derives op.operandLevel t r) :
    Derives op.level (s ++ op.symbol.toList ++ t) (op.build l r) := by
  cases op with
  | and => exact .and hl hr
  | or => exact .or hl hr

end Derives

end TruthExpr
