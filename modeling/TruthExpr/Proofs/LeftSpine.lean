import TruthExpr.Proofs.Chain
import TruthExpr.Proofs.Counts
import TruthExpr.Proofs.Rows

/-! # Left spines — what a chain is folded to, read back from its tree

    A chain is an operand and LINKS, each of them an operator with the operand
    behind it.  Folding joins the links one by one, so the last of them is
    at the root of the tree.  The route:

    * `foldPairs_row`: links at the front of a row are joined, and folding goes
      on behind them with what they have been joined to;
    * `leftSpine_eq_some_iff`: steps down the left side of a tree show the
      links that it has been joined from, from the last to the first, and no
      other tree shows the same;
    * `nodes_joinLinks` and `max?_reaches`: what is counted in the tree, link
      by link.  A link lifts all that is on its left by one node, so an
      operand lies the deeper the more links follow it.

    That values are folded to the same trees, and that a row of even length is
    refused whatever it holds, is known of all rows (`foldRow_ofItems`,
    `fold_unfinished_iff`). -/

namespace TruthExpr

/-- An operator and the operand behind it. -/
structure Link where
  op : Operator
  operand : Expr

namespace Expr

/-- Links in one row. -/
def row (links : List Link) : List ChainItem :=
  links.flatMap fun link => [.inr link.op, .inl link.operand]

/-- Joins links one by one to what stands on their left. -/
def joinLinks (x : Expr) (links : List Link) : Expr :=
  links.foldl (fun e link => link.op.build e link.operand) x

/-- What `n` steps down the left side of a tree pass, and where they end. -/
def leftSpine : Nat → Expr → Option (List Link × Expr)
  | 0, e => some ([], e)
  | n + 1, .and l r => (leftSpine n l).map fun (links, x) => (⟨.and, r⟩ :: links, x)
  | n + 1, .or l r => (leftSpine n l).map fun (links, x) => (⟨.or, r⟩ :: links, x)
  | _ + 1, _ => none

/-! ## Folding joins the links -/

/-- Every link is two items of the row. -/
theorem length_row (links : List Link) : (row links).length = 2 * links.length := by
  induction links with
  | nil => rfl
  | cons link links ih =>
      show (row links).length + 1 + 1 = 2 * (links.length + 1)
      omega

theorem row_append (links more : List Link) : row (links ++ more) = row links ++ row more :=
  List.flatMap_append

/-- Links are joined one after the other. -/
theorem joinLinks_append (x : Expr) (links more : List Link) :
    joinLinks x (links ++ more) = joinLinks (joinLinks x links) more :=
  List.foldl_append

/-- Links at the front of a row are joined before anything behind them. -/
theorem foldPairs_row (rest : List ChainItem) (links : List Link) :
    ∀ x, foldPairs x (row links ++ rest) = foldPairs (joinLinks x links) rest := by
  induction links with
  | nil => intro x; rfl
  | cons link links ih =>
      intro x
      exact ih (link.op.build x link.operand)

/-- A chain is folded to its links, joined. -/
theorem foldChain_row (x : Expr) (links : List Link) :
    foldChain (.inl x :: row links) = .ok (joinLinks x links) := by
  rw [Grammar.foldChain_cons x (by rw [length_row]; omega), ← List.append_nil (row links),
    foldPairs_row]
  rfl

/-- The beginning of a chain may be folded first. -/
theorem foldChain_row_append (x : Expr) (links more : List Link) :
    foldChain (.inl x :: row links ++ row more) =
      foldChain (.inl (joinLinks x links) :: row more) := by
  rw [List.cons_append, ← row_append, foldChain_row, foldChain_row, joinLinks_append]

/-! ## The spine -/

/-- A node puts one link in front of the spine of its left operand. -/
theorem leftSpine_build (op : Operator) (l r : Expr) (n : Nat) :
    (op.build l r).leftSpine (n + 1) =
      (l.leftSpine n).map fun (links, x) => (⟨op, r⟩ :: links, x) := by
  cases op <;> rfl

/-- A step down the left side needs a node with two operands. -/
theorem of_leftSpine_succ {n : Nat} {e x : Expr} {links : List Link}
    (h : e.leftSpine (n + 1) = some (links, x)) :
    ∃ op l r lower, e = Operator.build op l r ∧ l.leftSpine n = some (lower, x) ∧
      links = ⟨op, r⟩ :: lower := by
  have hbuild : ∀ op l r, (Operator.build op l r).leftSpine (n + 1) = some (links, x) →
      ∃ lower, l.leftSpine n = some (lower, x) ∧ links = ⟨op, r⟩ :: lower := by
    intro op l r h
    rw [leftSpine_build] at h
    obtain ⟨⟨lower, y⟩, hlower, heq⟩ := Option.map_eq_some_iff.mp h
    cases heq
    exact ⟨lower, hlower, rfl⟩
  cases e with
  | literal b => cases h
  | not e => cases h
  | and l r =>
      obtain ⟨lower, hlower, rfl⟩ := hbuild .and l r h
      exact ⟨.and, l, r, lower, rfl, hlower, rfl⟩
  | or l r =>
      obtain ⟨lower, hlower, rfl⟩ := hbuild .or l r h
      exact ⟨.or, l, r, lower, rfl, hlower, rfl⟩

/-- A tree shows links on its left side exactly when it has been joined from
    them, the one at the root last. -/
theorem leftSpine_eq_some_iff {n : Nat} {e x : Expr} {links : List Link} :
    e.leftSpine n = some (links, x) ↔ links.length = n ∧ joinLinks x links.reverse = e := by
  induction n generalizing e links with
  | zero =>
      constructor
      · intro h
        cases h
        exact ⟨rfl, rfl⟩
      · rintro ⟨hlen, rfl⟩
        obtain rfl := List.length_eq_zero_iff.mp hlen
        rfl
  | succ n ih =>
      constructor
      · intro h
        obtain ⟨op, l, r, lower, rfl, hlower, rfl⟩ := of_leftSpine_succ h
        obtain ⟨hlen, rfl⟩ := ih.mp hlower
        refine ⟨congrArg Nat.succ hlen, ?_⟩
        rw [List.reverse_cons, joinLinks_append]
        rfl
      · rintro ⟨hlen, rfl⟩
        obtain ⟨⟨op, r⟩, lower, rfl⟩ := List.exists_cons_of_length_eq_add_one hlen
        have hlower : (joinLinks x lower.reverse).leftSpine n = some (lower, x) :=
          ih.mpr ⟨Nat.succ.inj hlen, rfl⟩
        rw [List.reverse_cons, joinLinks_append]
        show (Operator.build op (joinLinks x lower.reverse) r).leftSpine (n + 1) = _
        rw [leftSpine_build, hlower]
        rfl

/-! ## Nodes and height -/

/-- A node is one level above the deeper of its operands. -/
theorem depth_measure_build (op : Operator) (l r : Expr) :
    (op.build l r).measure.depth = max l.measure.depth r.measure.depth + 1 := by
  rw [depth_measure, depth_measure, depth_measure]
  cases op <;> rfl

/-- Every link adds the nodes of its operand and one more. -/
theorem nodes_joinLinks (links : List Link) :
    ∀ x, (joinLinks x links).measure.nodes =
      x.measure.nodes + links.foldr (fun link n => link.operand.measure.nodes + n) 0 +
        links.length := by
  induction links with
  | nil => intro x; rfl
  | cons link links ih =>
      intro x
      show (joinLinks (link.op.build x link.operand) links).measure.nodes = _
      have hbuild := length_nodes_build link.op x link.operand
      rw [← nodes_measure, ← nodes_measure, ← nodes_measure] at hbuild
      rw [ih, hbuild, List.foldr_cons, List.length_cons]
      omega

/-- How far down the operands of a chain reach in its tree.  The first of them
    is below all links, and each of the others is below its own link and the
    ones behind it. -/
def reaches (x : Expr) (links : List Link) : List Nat :=
  (x.measure.depth + links.length) ::
    links.mapIdx fun i link => link.operand.measure.depth + (links.length - i)

/-- The first link turns two operands into one that reaches as far down. -/
theorem max?_reaches_cons (x : Expr) (link : Link) (links : List Link) :
    (reaches x (link :: links)).max? = (reaches (link.op.build x link.operand) links).max? := by
  have hmax : max (x.measure.depth + (links.length + 1))
      (link.operand.measure.depth + (links.length + 1)) =
        (link.op.build x link.operand).measure.depth + links.length := by
    rw [depth_measure_build]
    omega
  rw [reaches, reaches, List.mapIdx_cons, List.max?_cons', List.max?_cons', List.foldl_cons,
    List.length_cons, Nat.sub_zero, hmax]
  simp only [Nat.add_sub_add_right]

/-- The tree of a chain is as high as its operands reach down. -/
theorem max?_reaches (links : List Link) :
    ∀ x, (reaches x links).max? = some (joinLinks x links).measure.depth := by
  induction links with
  | nil => intro x; rfl
  | cons link links ih =>
      intro x
      rw [max?_reaches_cons]
      exact ih (link.op.build x link.operand)

/-! ## Folded chains -/

/-- LEFT SPINE: a chain is folded to a tree that shows, on as many steps down
    its left side as the chain has links, these links from the last to the
    first, and ends in the first operand; no other tree does.  The beginning of
    a chain may be folded first.  The tree has the nodes of all operands and
    one for each link, and is as high as the operand that reaches furthest
    down.  The values of the chain are folded to the same tree.  And a row,
    whatever it holds, is refused for its length exactly when this is even. -/
theorem chain_leans_left (x : Expr) (links : List Link) :
    (∃ e, foldChain (.inl x :: row links) = .ok e ∧
      (∀ e₁ : Expr, e₁.leftSpine links.length = some (links.reverse, x) ↔ e₁ = e) ∧
      (∀ more, foldChain (.inl x :: row links ++ row more) = foldChain (.inl e :: row more)) ∧
      e.measure.nodes =
        x.measure.nodes + links.foldr (fun link n => link.operand.measure.nodes + n) 0 +
          links.length ∧
      ((x.measure.depth + links.length) :: links.mapIdx fun i link =>
        link.operand.measure.depth + (links.length - i)).max? = some e.measure.depth ∧
      Value.foldRow ((.inl x :: row links).map Value.ofItem) = .ok (.ofExpr e)) ∧
    (∀ items n, foldChain items = .error (.unfinishedChain n) ↔ items.length = n ∧ n % 2 = 0) ∧
    ∀ values n, Value.foldRow values = .error (.unfinishedChain n) ↔
      values.length = n ∧ n % 2 = 0 := by
  refine ⟨⟨joinLinks x links, foldChain_row x links, ?_, foldChain_row_append x links,
    nodes_joinLinks links x, max?_reaches links x,
      ((Value.foldRow_ofItems _).1 _).mpr (foldChain_row x links)⟩,
    foldChain_unfinished_iff, Row.fold_unfinished_iff Value.joinBy_ne_unfinished⟩
  intro e₁
  rw [leftSpine_eq_some_iff, List.length_reverse, List.reverse_reverse, eq_comm (a := e₁)]
  exact and_iff_right rfl

/-- The operand in the middle reaches furthest down, though one link fewer lies
    above it than above the first. -/
example :
    let links : List Link :=
      [⟨.or, .not (.literal true)⟩, ⟨.and, .literal false⟩]
    ∃ e, foldChain (.inl (.literal true) :: row links) = .ok e ∧
      e = .and (.or (.literal true) (.not (.literal true))) (.literal false) ∧
      reaches (.literal true) links = [3, 4, 2] ∧ e.measure.depth = 4 :=
  ⟨_, rfl, rfl, rfl, rfl⟩

end Expr

end TruthExpr
