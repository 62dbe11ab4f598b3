import TruthExpr.Expr
import TruthExpr.Json

/-! # Views — what is shown of a tree: outline, object, source text, measure

    * In the outline, a node stands below its parent, further in by one indent,
      and behind the word for its place in the parent.  Left comes before right.
    * As an object, every node has its type first, then its value or its
      operands, left before right.
    * In the source text, every conjunction and every disjunction stands in
      parentheses of its own, so the text reads back to the same tree whatever
      the precedence of the operators.
    * The measure says what a tree is made of, counted in one walk.  The walk
      carries the depth of the node it is at and a record of what it has met. -/

namespace TruthExpr

namespace Expr

/-! ## Outlines -/

/-- What a node is called. -/
def title : Expr → String
  | .literal b => "Literal(" ++ word b ++ ")"
  | .not _ => "Not"
  | .and _ _ => "And"
  | .or _ _ => "Or"

/-- The lines of a tree whose first line begins with `pad` and `label`. -/
def outlineLines (indent : String) (pad label : String) (e : Expr) : List String :=
  (pad ++ label ++ e.title) ::
    match e with
    | .literal _ => []
    | .not e => outlineLines indent (pad ++ indent) "operand: " e
    | .and l r | .or l r =>
        outlineLines indent (pad ++ indent) "left: " l ++
          outlineLines indent (pad ++ indent) "right: " r

/-- A tree as lines of text. -/
def outline (indent : String) (e : Expr) : String :=
  "\n".intercalate (outlineLines indent "" "" e)

/-- Two blanks, the usual indent. -/
def usualIndent : String := "  "

/-! ## Objects -/

/-- The object of a tree. -/
def toJson : Expr → Json
  | .literal b => .object [("type", .string "Literal"), ("value", .bool b)]
  | .not e => .object [("type", .string "Not"), ("operand", e.toJson)]
  | .and l r => .object [("type", .string "And"), ("left", l.toJson), ("right", r.toJson)]
  | .or l r => .object [("type", .string "Or"), ("left", l.toJson), ("right", r.toJson)]

/-! ## Source texts -/

/-- The text of a tree. -/
def source : Expr → String
  | .literal b => word b
  | .not e => "!" ++ e.source
  | .and l r => "(" ++ l.source ++ "&&" ++ r.source ++ ")"
  | .or l r => "(" ++ l.source ++ "||" ++ r.source ++ ")"

end Expr

/-! ## Measures -/

/-- What a tree is made of. -/
structure Measure where
  /-- The truth value occurs as a leaf. -/
  hasTrue : Bool := false
  hasFalse : Bool := false
  negations : Nat := 0
  conjunctions : Nat := 0
  disjunctions : Nat := 0
  nodes : Nat := 0
  /-- The number of nodes on a longest way from the root to a leaf. -/
  depth : Nat := 0
deriving DecidableEq, Repr

namespace Measure

/-- One more node, at the given depth. -/
def enter (m : Measure) (depth : Nat) : Measure :=
  { m with nodes := m.nodes + 1, depth := max m.depth depth }

/-- One more leaf. -/
def addLiteral (m : Measure) : Bool → Measure
  | true => { m with hasTrue := true }
  | false => { m with hasFalse := true }

/-- The truth values that occur, the false one first. -/
def literals (m : Measure) : List Bool :=
  (if m.hasFalse then [false] else []) ++ (if m.hasTrue then [true] else [])

/-- The signs that occur and how often, sorted by sign. -/
def operators (m : Measure) : List (String × Nat) :=
  [("!", m.negations), ("&&", m.conjunctions), ("||", m.disjunctions)].filter (·.2 ≠ 0)

end Measure

namespace Expr

/-- Adds a tree, whose root is at the given depth, to a measure. -/
def addTo : Expr → Nat → Measure → Measure
  | .literal b, depth, m => (m.enter depth).addLiteral b
  | .not e, depth, m =>
      let m := m.enter depth
      e.addTo (depth + 1) { m with negations := m.negations + 1 }
  | .and l r, depth, m =>
      let m := m.enter depth
      l.addTo (depth + 1) (r.addTo (depth + 1) { m with conjunctions := m.conjunctions + 1 })
  | .or l r, depth, m =>
      let m := m.enter depth
      l.addTo (depth + 1) (r.addTo (depth + 1) { m with disjunctions := m.disjunctions + 1 })

/-- The measure of a tree. -/
def measure (e : Expr) : Measure := e.addTo 1 {}

end Expr

end TruthExpr
