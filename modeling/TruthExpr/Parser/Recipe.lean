import TruthExpr.Grammar

/-! # Recipes — parsers written down as data

    A recipe says how a parser is put together from literals, from parts of
    the grammar and from other recipes.  Its values are of all kinds, and any
    change may be made to any of them. -/

namespace TruthExpr

/-- What is done to the value that a parser has read. -/
inductive Change where
  /-- Puts it into a list of its own. -/
  | wrap
  /-- Folds a row of operands and operators. -/
  | fold
  /-- Makes a leaf of it. -/
  | literal
  /-- Negates it. -/
  | not
  /-- Forgets it in favour of another value. -/
  | const (value : Json)

namespace Change

/-- Changes a value.  Only a fold can be asked of a value in vain. -/
def apply : Change → Value → Except Fault Value
  | .wrap, v => .ok (.list [v])
  | .fold, v => v.fold
  | .literal, v => .ok (.leaf v)
  | .not, v => .ok (.not v)
  | .const value, _ => .ok (.data value)

end Change

/-- How a parser is put together. -/
inductive Recipe where
  | literal (text : String) (value : Json) (name : String)
  | choice (alternatives : List Recipe)
  | label (name : String) (part : Recipe)
  | rule (name : String) (part : Recipe)
  | separated (operand operator : Recipe)
  | change (how : Change) (part : Recipe)
  | grammar (name : Grammar.Rule)
  | committing (part : Recipe)
  | sequence (parts : List Recipe)
  | fail (failure : Failure)

namespace Recipe

mutual

/-- The parser of a recipe.  An empty name stands for the usual label. -/
def parser : Recipe → Parser Value
  | .literal text value name =>
      .labelled text (.data value) (if name = "" then Parser.quotedLabel text else name)
  | .choice alternatives => .choice (parsers alternatives)
  | .label name part => .label name part.parser
  | .rule name part => .rule name part.parser
  | .separated operand operator =>
      .map Value.ofItems (.separated operand.parser operator.parser)
  | .change how part => .tryMap how.apply part.parser
  | .grammar name => name.parser
  | .committing part => .committing part.parser
  | .sequence parts => .map .list (.sequence (parsers parts))
  | .fail failure => .fail failure

/-- The parsers of several recipes. -/
def parsers : List Recipe → List (Parser Value)
  | [] => []
  | part :: rest => part.parser :: parsers rest

end

end Recipe

end TruthExpr
