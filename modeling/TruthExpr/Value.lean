import TruthExpr.Expr
import TruthExpr.Json
import TruthExpr.Outcome

/-! # Values and rows — what parsers come to, and how a row of it is folded

    The parts of the grammar read values of different kinds: trees, operators,
    words and rows of these.  Parsers put together by hand read data besides,
    so a tree of values may have anything at all in the place of an operand,
    and a fold may be asked of what is no row.

    `[x0, op1, x1, …, opN, xN]` stands for `(((x0 op1 x1) op2 x2) … opN xN)`.
    A row of even length, the empty one included, is no chain, whatever it
    holds.  There is one fold for rows of all kinds (`Row.fold`).  What an item
    makes of its neighbours is up to the kind. -/

namespace TruthExpr

/-! ## Rows -/

namespace Row

variable {α : Type}

/-- Joins what follows in a row, two items at a time, to what stands on its
    left.  `join op x y` is what the item `op` makes of its neighbours; an item
    with none behind it joins nothing. -/
def foldPairs (join : α → α → α → Except Fault α) (x : α) : List α → Except Fault α
  | op :: y :: rest =>
      match join op x y with
      | .ok z => foldPairs join z rest
      | .error fault => .error fault
  | _ => .ok x

/-- Folds a row to the left.  The length is looked at first, and a single item
    is left as it is. -/
def fold (join : α → α → α → Except Fault α) : List α → Except Fault α
  | [] => .error (.unfinishedChain 0)
  | x :: rest =>
      if rest.length % 2 = 0 then foldPairs join x rest
      else .error (.unfinishedChain (rest.length + 1))

end Row

/-! ## Rows of the grammar -/

/-- An item of a chain: an operand or an operator. -/
abbrev ChainItem := Expr ⊕ Operator

namespace ChainItem

/-- Joins two operands by an operator.  An expression has no place for an
    operator among its operands. -/
def join : ChainItem → ChainItem → ChainItem → Except Fault ChainItem
  | .inr op, .inl x, .inl y => .ok (.inl (op.build x y))
  | .inr _, _, _ => .error .misplacedItem
  | .inl e, _, _ => .error (.notAnOperator e.typeName)

/-- The operand that an item is. -/
def operand : ChainItem → Except Fault Expr
  | .inl e => .ok e
  | .inr _ => .error .misplacedItem

end ChainItem

namespace Expr

/-- Joins the operators and operands that follow an operand. -/
def foldPairs (x : Expr) (items : List ChainItem) : Except Fault Expr :=
  (Row.foldPairs ChainItem.join (.inl x) items).bind ChainItem.operand

/-- The tree of a chain, leaning to the left. -/
def foldChain (items : List ChainItem) : Except Fault Expr :=
  (Row.fold ChainItem.join items).bind ChainItem.operand

end Expr

/-! ## Values of all kinds -/

/-- What a parser of any kind may read. -/
inductive Value where
  | data (value : Json)
  | operator (value : Operator)
  | list (values : List Value)
  /-- A leaf, which may hold what is no truth value. -/
  | leaf (value : Value)
  | not (operand : Value)
  | and (left right : Value)
  | or (left right : Value)
deriving Inhabited, Repr

namespace Value

/-- A tree as a value. -/
def ofExpr : Expr → Value
  | .literal b => .leaf (.data (.bool b))
  | .not e => .not (ofExpr e)
  | .and l r => .and (ofExpr l) (ofExpr r)
  | .or l r => .or (ofExpr l) (ofExpr r)

/-- What sort of value it is. -/
def typeName : Value → String
  | .data .null => "NoneType"
  | .data (.bool _) => "bool"
  | .data (.number _ 0) => "int"
  | .data (.number _ _) => "float"
  | .data (.string _) => "str"
  | .data (.array _) => "list"
  | .data (.object _) => "dict"
  | .operator _ => "Operator"
  | .list _ => "list"
  | .leaf _ => "Literal"
  | .not _ => "Not"
  | .and _ _ => "And"
  | .or _ _ => "Or"

/-- The value counts as true: it is neither nothing, nor false, nor zero, nor
    without any content. -/
def isTrue : Value → Bool
  | .data .null => false
  | .data (.bool b) => b
  | .data (.number mantissa _) => mantissa ≠ 0
  | .data (.string s) => s ≠ ""
  | .data (.array items) => !items.isEmpty
  | .data (.object members) => !members.isEmpty
  | .list values => !values.isEmpty
  | _ => true

/-- The tree that joins two operands of any kind. -/
def join : Operator → Value → Value → Value
  | .and, left, right => .and left right
  | .or, left, right => .or left right

/-- Joins two values by a third.  Only an operator can do it, but it takes all
    that stands on its sides. -/
def joinBy : Value → Value → Value → Except Fault Value
  | .operator op, x, y => .ok (join op x y)
  | value, _, _ => .error (.notAnOperator value.typeName)

/-- The tree of a row of values, leaning to the left. -/
def foldRow (values : List Value) : Except Fault Value := Row.fold joinBy values

/-- The tree of a value that is a row, be it a list or the characters of a
    string.  The members of an object can be counted, but have names instead
    of places. -/
def fold : Value → Except Fault Value
  | .list values => foldRow values
  | .data (.array items) => foldRow (items.map .data)
  | .data (.string s) =>
      foldRow (s.toList.map fun c => .data (.string (String.ofList [c])))
  | .data (.object members) =>
      if members.length % 2 = 0 then .error (.unfinishedChain members.length)
      else .error .noFirstItem
  | value => .error (.notARow value.typeName)

/-- The items of a row of operands and operators, in one list. -/
def ofItems (items : List (Value ⊕ Value)) : Value :=
  .list (items.map fun | .inl v => v | .inr v => v)

end Value

end TruthExpr
