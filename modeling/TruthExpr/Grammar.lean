import TruthExpr.Parser
import TruthExpr.Value

/-! # The grammar of expressions, by descent

        expr   := term ("||" term)*
        term   := factor ("&&" factor)*
        factor := "!" factor | "(" expr ")" | boolean

    Precedence comes from the nesting of the rules; each of the two chain
    levels collects one row and folds it to the left.

    The descent is paid for, in frames of the interpreter that it runs on:
    every open parenthesis takes `groupCost` and every open negation
    `negationCost` out of an allowance, and what follows a closed one has it
    back.  A descent that cannot pay is aborted.  The allowance is also what
    the recursion goes by.

    Whatever a part of the grammar reads, it comes to a value of the one common
    kind, so any part of it may be run on its own (`Rule.parser`). -/

namespace TruthExpr

namespace Grammar

/-- The word for the true value. -/
def trueWord : Parser Bool := .literal "true" true

/-- The word for the false value. -/
def falseWord : Parser Bool := .literal "false" false

/-- The sign of negation. -/
def bang : Parser String := .literal "!" "!"

/-- The sign of conjunction. -/
def andSign : Parser Operator := .literal "&&" .and

/-- The sign of disjunction. -/
def orSign : Parser Operator := .literal "||" .or

/-- The opening parenthesis. -/
def opening : Parser String := .literal "(" "("

/-- The closing parenthesis. -/
def closing : Parser String := .literal ")" ")"

/-- A truth value; the two words are one expectation. -/
def constant : Parser Expr :=
  .map .literal (.label "boolean" (.choice [trueWord, falseWord]))

/-- A negation of what `operand` reads.  Behind the sign there is no way
    back: the failure of the operand is committed. -/
def negationOf (operand : Parser Expr) : Parser Expr :=
  bang.andThen (.map .not operand.committing)

/-- What `inner` reads, in parentheses. -/
def groupOf (inner : Parser Expr) : Parser Expr :=
  opening.andThen (inner.followedBy closing)

/-- An operand of the tighter level. -/
def factorOf (negation group : Parser Expr) : Parser Expr :=
  .rule "factor" (.choice [negation, group, constant])

/-- A chain of conjunctions. -/
def termOf (factor : Parser Expr) : Parser Expr :=
  .rule "term" (.tryMap Expr.foldChain (factor.separated andSign))

/-- A chain of disjunctions. -/
def exprOf (term : Parser Expr) : Parser Expr :=
  .rule "expr" (.tryMap Expr.foldChain (term.separated orSign))

/-- What an open negation takes out of the allowance: a frame for itself, and
    for the factor behind it one for the rule, one for its body and one for
    its choice. -/
def negationCost : Nat := 4

/-- What an open parenthesis takes out of the allowance: a frame for itself; for
    the expression and for the term in it, one for the rule, one for its body
    and one for its repetition; and three for the factor, as for a negation. -/
def groupCost : Nat := 10

/-- Aborts: the allowance does not pay for another level. -/
def spent : Parser Expr := .abort .nestedTooDeeply

/-- A factor, with an allowance for what it opens. -/
def factor : Nat → Parser Expr
  | a + 10, c =>
      factorOf (negationOf (factor (a + 6))) (groupOf (exprOf (termOf (factor a)))) c
  | a + 4, c => factorOf (negationOf (factor a)) (groupOf spent) c
  | _, c => factorOf (negationOf spent) (groupOf spent) c

/-- A chain of conjunctions, with an allowance. -/
def term (allowance : Nat) : Parser Expr := termOf (factor allowance)

/-- A whole expression, with an allowance. -/
def expr (allowance : Nat) : Parser Expr := exprOf (term allowance)

/-- Pays `cost` out of an allowance for running `p` with what remains. -/
def paying (cost : Nat) (p : Nat → Parser Expr) (allowance : Nat) : Parser Expr :=
  if cost ≤ allowance then p (allowance - cost) else spent

/-- A negation, with an allowance. -/
def negation (allowance : Nat) : Parser Expr :=
  negationOf (paying negationCost factor allowance)

/-- An expression in parentheses, with an allowance. -/
def group (allowance : Nat) : Parser Expr :=
  groupOf (paying groupCost expr allowance)

/-- A factor is a negation, a group or a truth value, each with the whole
    allowance. -/
theorem factor_eq (allowance : Nat) :
    factor allowance = factorOf (negation allowance) (group allowance) := by
  funext c
  by_cases h10 : 10 ≤ allowance
  · obtain ⟨a, rfl⟩ := Nat.exists_eq_add_of_le' h10
    have h4 : 4 ≤ a + 10 := by omega
    have h6 : a + 10 - 4 = a + 6 := by omega
    rw [factor]
    simp [negation, group, paying, negationCost, groupCost, h4, h6, expr, term]
  · by_cases h4 : 4 ≤ allowance
    · obtain ⟨a, rfl⟩ := Nat.exists_eq_add_of_le' h4
      rw [factor]
      · simp [negation, group, paying, negationCost, groupCost, h10]
      · intro b hb
        omega
    · rw [factor]
      · simp [negation, group, paying, negationCost, groupCost, h10, h4]
      · intro b hb
        omega
      · intro b hb
        omega

/-- An allowance that no descent from the cursor can spend: a parenthesis
    moves the cursor on by one character and a negation is cheaper. -/
def ample (c : Cursor) : Nat := groupCost * c.distance

/-- Runs a rule with an ample allowance. -/
def unlimited (rule : Nat → Parser Expr) : Parser Expr := fun c => rule (ample c) c

end Grammar

/-! ## Rules by name -/

/-- The parts of the grammar. -/
inductive Grammar.Rule where
  | expr
  | term
  | factor
  | constant
  | negation
  | group
  | trueWord
  | falseWord
  | bang
  | andSign
  | orSign
  | opening
  | closing
deriving DecidableEq, Repr

namespace Grammar.Rule

/-- The parser of a part, with an ample allowance for nesting. -/
def parser : Rule → Parser Value
  | .expr => (unlimited Grammar.expr).map .ofExpr
  | .term => (unlimited Grammar.term).map .ofExpr
  | .factor => (unlimited Grammar.factor).map .ofExpr
  | .constant => Grammar.constant.map .ofExpr
  | .negation => (unlimited Grammar.negation).map .ofExpr
  | .group => (unlimited Grammar.group).map .ofExpr
  | .trueWord => Grammar.trueWord.map fun b => .data (.bool b)
  | .falseWord => Grammar.falseWord.map fun b => .data (.bool b)
  | .bang => Grammar.bang.map fun s => .data (.string s)
  | .andSign => Grammar.andSign.map .operator
  | .orSign => Grammar.orSign.map .operator
  | .opening => Grammar.opening.map fun s => .data (.string s)
  | .closing => Grammar.closing.map fun s => .data (.string s)

end Grammar.Rule

end TruthExpr
