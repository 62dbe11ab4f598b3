import TruthExpr.Expr.View
import TruthExpr.Expr.Walk
import TruthExpr.Json.Store

/-! # Drafts — trees with leaves that are no expressions

    A draft is what a tree put together by hand may look like before anyone
    has checked it.  It is checked while it is printed or measured, in one walk
    over it that ends at the first foreign leaf it comes to.  The walks for the
    object, the outline and the source text come to the left operand first, the
    walk that measures to the right one.  The walk for the source text has the
    signs to be printed among the parts that are left to visit, so a leaf that
    is a text looks like one of these and is printed. -/

namespace TruthExpr

/-- A value in the place of an expression. -/
inductive Foreign where
  | text (value : String)
  | number (value : Int)
  | nothing
  | operator (value : Operator)
deriving DecidableEq, Repr

/-- What sort of value it is. -/
def Foreign.typeName : Foreign → String
  | .text _ => "str"
  | .number _ => "int"
  | .nothing => "NoneType"
  | .operator _ => "Operator"

/-- The refusal of a value in words. -/
def Foreign.message (f : Foreign) : String :=
  "Unknown node " ++ f.typeName

/-- A tree that may have foreign leaves. -/
inductive Draft where
  | literal (value : Bool)
  | not (operand : Draft)
  | and (left right : Draft)
  | or (left right : Draft)
  | foreign (value : Foreign)
deriving DecidableEq, Repr

namespace Draft

/-- The draft of a tree. -/
def ofExpr : Expr → Draft
  | .literal b => .literal b
  | .not e => .not (ofExpr e)
  | .and l r => .and (ofExpr l) (ofExpr r)
  | .or l r => .or (ofExpr l) (ofExpr r)

/-- The tree of a draft, checked from left to right. -/
def checkLeft : Draft → Except Foreign Expr
  | .literal b => .ok (.literal b)
  | .not d => do return .not (← d.checkLeft)
  | .and l r => do
      let l ← l.checkLeft
      let r ← r.checkLeft
      return .and l r
  | .or l r => do
      let l ← l.checkLeft
      let r ← r.checkLeft
      return .or l r
  | .foreign f => .error f

/-- The tree of a draft, checked from right to left. -/
def checkRight : Draft → Except Foreign Expr
  | .literal b => .ok (.literal b)
  | .not d => do return .not (← d.checkRight)
  | .and l r => do
      let r ← r.checkRight
      let l ← l.checkRight
      return .and l r
  | .or l r => do
      let r ← r.checkRight
      let l ← l.checkRight
      return .or l r
  | .foreign f => .error f

/-- What a draft weighs on the pile of a walk: enough for its parts and the
    signs around them. -/
def weight : Draft → Nat
  | .literal _ | .foreign _ => 1
  | .not d => d.weight + 1
  | .and l r | .or l r => l.weight + r.weight + 4

/-! ## The object -/

/-- Fills in the object of a draft, given its number. -/
def visitObject : Draft × Nat → Json.Store → Except Foreign (List (Draft × Nat) × Json.Store)
  | (.literal b, n), s =>
      .ok ([], s.update n
        [("type", .value (.string "Literal")), ("value", .value (.bool b))])
  | (.not d, n), s =>
      .ok ([(d, s.size)],
        (s.update n [("type", .value (.string "Not")), ("operand", .object s.size)]).enter)
  | (.and l r, n), s =>
      .ok ([(l, s.size), (r, s.size + 1)],
        (s.update n [("type", .value (.string "And")), ("left", .object s.size),
          ("right", .object (s.size + 1))]).enter.enter)
  | (.or l r, n), s =>
      .ok ([(l, s.size), (r, s.size + 1)],
        (s.update n [("type", .value (.string "Or")), ("left", .object s.size),
          ("right", .object (s.size + 1))]).enter.enter)
  | (.foreign f, _), _ => .error f

/-- The walk that fills in objects. -/
def objectWalk : Walk (Draft × Nat) Json.Store Foreign where
  visit := visitObject
  weight item := item.1.weight
  lighter {item _ _ _} h := by
    obtain ⟨d, n⟩ := item
    cases d <;> cases h <;> simp [Walk.load, weight]

/-- The object of a draft. -/
def toJson (d : Draft) : Except Foreign Json :=
  (objectWalk.run [(d, 0)] Json.Store.start).map fun s => s.read 0

/-! ## The outline -/

/-- How far in a line stands. -/
def padding (indent : String) (depth : Nat) : String := String.join (List.replicate depth indent)

/-- The word for a place in the parent, as it stands before a node. -/
def label (place : Option String) : String := place.elim "" (· ++ ": ")

/-- The line of a node `depth` levels below the root, with the word for its
    place in its parent, if it has one. -/
def outlineLine (indent : String) (depth : Nat) (place : Option String) (title : String) : String :=
  padding indent depth ++ label place ++ title

/-- Writes the line of a draft, given its depth and its place. -/
def visitOutline (indent : String) :
    Draft × Nat × Option String → Array String →
      Except Foreign (List (Draft × Nat × Option String) × Array String)
  | (.literal b, depth, place), lines =>
      .ok ([], lines.push (outlineLine indent depth place ("Literal(" ++ Expr.word b ++ ")")))
  | (.not d, depth, place), lines =>
      .ok ([(d, depth + 1, some "operand")], lines.push (outlineLine indent depth place "Not"))
  | (.and l r, depth, place), lines =>
      .ok ([(l, depth + 1, some "left"), (r, depth + 1, some "right")],
        lines.push (outlineLine indent depth place "And"))
  | (.or l r, depth, place), lines =>
      .ok ([(l, depth + 1, some "left"), (r, depth + 1, some "right")],
        lines.push (outlineLine indent depth place "Or"))
  | (.foreign f, _, _), _ => .error f

/-- The walk that writes lines. -/
def outlineWalk (indent : String) : Walk (Draft × Nat × Option String) (Array String) Foreign where
  visit := visitOutline indent
  weight item := item.1.weight
  lighter {item _ _ _} h := by
    obtain ⟨d, depth, place⟩ := item
    cases d <;> cases h <;> simp [Walk.load, weight]

/-- The outline of a draft. -/
def outline (indent : String) (d : Draft) : Except Foreign String :=
  ((outlineWalk indent).run [(d, 0, none)] #[]).map fun lines => "\n".intercalate lines.toList

/-! ## The measure -/

/-- Counts the root of a draft, given its depth. -/
def visitMeasure : Draft × Nat → Measure → Except Foreign (List (Draft × Nat) × Measure)
  | (.literal b, depth), m => .ok ([], (m.enter depth).addLiteral b)
  | (.not d, depth), m =>
      let m := m.enter depth
      .ok ([(d, depth + 1)], { m with negations := m.negations + 1 })
  | (.and l r, depth), m =>
      let m := m.enter depth
      .ok ([(r, depth + 1), (l, depth + 1)], { m with conjunctions := m.conjunctions + 1 })
  | (.or l r, depth), m =>
      let m := m.enter depth
      .ok ([(r, depth + 1), (l, depth + 1)], { m with disjunctions := m.disjunctions + 1 })
  | (.foreign f, _), _ => .error f

/-- The walk that counts. -/
def measureWalk : Walk (Draft × Nat) Measure Foreign where
  visit := visitMeasure
  weight item := item.1.weight
  lighter {item _ _ _} h := by
    obtain ⟨d, depth⟩ := item
    cases d <;> cases h <;> simp [Walk.load, weight] <;> omega

/-- The measure of a draft. -/
def measure (d : Draft) : Except Foreign Measure := measureWalk.run [(d, 1)] {}

/-! ## The source text -/

/-- A text, as something to be printed. -/
def sign (text : String) : Draft := .foreign (.text text)

/-- Prints what a draft begins with. -/
def visitSource : Draft → Array String → Except Foreign (List Draft × Array String)
  | .foreign (.text s), printed => .ok ([], printed.push s)
  | .literal b, printed => .ok ([], printed.push (Expr.word b))
  | .not d, printed => .ok ([d], printed.push "!")
  | .and l r, printed => .ok ([sign "(", l, sign "&&", r, sign ")"], printed)
  | .or l r, printed => .ok ([sign "(", l, sign "||", r, sign ")"], printed)
  | .foreign f, _ => .error f

/-- The walk that prints. -/
def sourceWalk : Walk Draft (Array String) Foreign where
  visit := visitSource
  weight := weight
  lighter {d _ _ _} h := by
    cases d with
    | foreign f =>
        cases f <;> cases h
        simp [Walk.load, weight]
    | _ =>
        cases h
        simp [Walk.load, weight, sign] <;> omega

/-- The source text of a draft. -/
def source (d : Draft) : Except Foreign String :=
  (sourceWalk.run [d] #[]).map fun printed => String.join printed.toList

end Draft

end TruthExpr
