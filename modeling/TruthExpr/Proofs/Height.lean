import TruthExpr.Expr.View

/-! # Heights — one number for the walk, the tree and its object

    The HEIGHT of a tree is the number of nodes on a longest way from its root
    to a leaf.  The walk that measures the tree comes as deep as that
    (`depth_measure`), and so do the objects that stand for its nodes nest
    (`objectDepth_toJson`).  A limit on the one is a limit on the others. -/

namespace TruthExpr

namespace Expr

/-- The number of nodes on a longest way from the root to a leaf. -/
def height : Expr → Nat
  | .literal _ => 1
  | .not e => e.height + 1
  | .and l r | .or l r => max l.height r.height + 1

/-- A walk over a tree whose root has `d` nodes above it comes to a depth of
    `d` and the height of the tree, if it has not been deeper before. -/
theorem depth_addTo (e : Expr) :
    ∀ (d : Nat) (m : Measure), (e.addTo (d + 1) m).depth = max m.depth (d + e.height) := by
  induction e with
  | literal b =>
      intro d m
      cases b <;> rfl
  | not e ih =>
      intro d m
      show (e.addTo (d + 1 + 1) _).depth = max m.depth (d + (e.height + 1))
      rw [ih]
      show max (max m.depth (d + 1)) (d + 1 + e.height) = _
      omega
  | and l r ihl ihr | or l r ihl ihr =>
      intro d m
      -- the right operand is walked first, so what has been measured when the
      -- left one is reached depends on it
      show (l.addTo (d + 1 + 1) (r.addTo (d + 1 + 1) _)).depth =
        max m.depth (d + (max l.height r.height + 1))
      rw [ihl, ihr]
      show max (max (max m.depth (d + 1)) (d + 1 + r.height)) (d + 1 + l.height) = _
      omega

/-- The walk from the root comes as deep as the tree is high. -/
theorem depth_measure (e : Expr) : e.measure.depth = e.height := by
  rw [measure, depth_addTo e 0 {}, Nat.zero_add]
  exact Nat.zero_max e.height

/-- The object of a tree nests as deep as the tree is high. -/
theorem objectDepth_toJson (e : Expr) : e.toJson.objectDepth = e.height := by
  induction e with
  | literal b => rfl
  | not e ih =>
      show max 0 (max e.toJson.objectDepth 0) + 1 = e.height + 1
      rw [ih]
      omega
  | and l r ihl ihr | or l r ihl ihr =>
      show max 0 (max l.toJson.objectDepth (max r.toJson.objectDepth 0)) + 1 =
        max l.height r.height + 1
      rw [ihl, ihr]
      omega

end Expr

end TruthExpr
