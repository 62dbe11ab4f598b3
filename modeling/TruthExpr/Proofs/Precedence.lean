import TruthExpr.Proofs.Acceptance

/-! # Precedence — nothing but parentheses overrides it

    Where the grammar asks for an operand, a tree of a looser kind can only
    stand in parentheses.  Such a place in a tree is an OVERRIDE.  The route:

    * `overrides_le`: each override of a derived tree has a parenthesis of its
      own in the text.  The induction carries one more parenthesis for a tree
      that is itself too loose for the rule that derives it;
    * `sparse_text`: a tree has a text with just these parentheses, so that the
      bound is met by some text of every tree;
    * `bare_iff`: a tree without overrides leans to the left throughout. -/

namespace TruthExpr

namespace Expr

/-- The tree is too loose to stand bare where the rule is asked for: a chain is
    no factor, and a disjunction is no term. -/
def needsGroup : Level → Expr → Bool
  | .factor, .and _ _ | .factor, .or _ _ | .term, .or _ _ => true
  | _, _ => false

/-- The number of places where a node could not stand without parentheses: a
    chain under a negation or to the right of a conjunction, and a disjunction
    to the left of a conjunction or to the right of a disjunction. -/
def overrides : Expr → Nat
  | .literal _ => 0
  | .not e => (e.needsGroup .factor).toNat + e.overrides
  | .and l r =>
      (l.needsGroup .term).toNat + (r.needsGroup .factor).toNat + (l.overrides + r.overrides)
  | .or l r => (r.needsGroup .term).toNat + (l.overrides + r.overrides)

/-- What a tree looks like that has been written without parentheses: there are
    disjunctions on the left spine only, below them chains of conjunctions that
    lean to the left, and below these negations of negations and of words. -/
def Bare : Level → Expr → Prop
  | _, .literal _ => True
  | _, .not e => Bare .factor e
  | .factor, .and _ _ => False
  | _, .and l r => Bare .term l ∧ Bare .factor r
  | .expr, .or l r => Bare .expr l ∧ Bare .term r
  | _, .or _ _ => False

@[simp] theorem needsGroup_literal (level : Level) (b : Bool) :
    (literal b).needsGroup level = false := by
  cases level <;> rfl

@[simp] theorem needsGroup_not (level : Level) (e : Expr) :
    (not e).needsGroup level = false := by
  cases level <;> rfl

@[simp] theorem needsGroup_and (level : Level) (l r : Expr) :
    (and l r).needsGroup level = decide (level = .factor) := by
  cases level <;> rfl

@[simp] theorem needsGroup_or (level : Level) (l r : Expr) :
    (or l r).needsGroup level = decide (level ≠ .expr) := by
  cases level <;> rfl

/-- Every tree may stand bare as a whole text. -/
@[simp] theorem needsGroup_expr (e : Expr) : e.needsGroup .expr = false := by
  cases e <;> rfl

/-- A tree that may stand bare as a factor may do so as a term. -/
theorem needsGroup_term_le (e : Expr) :
    (e.needsGroup .term).toNat ≤ (e.needsGroup .factor).toNat := by
  cases e <;> simp

/-- The trees without overrides that fit a rule are the bare ones. -/
theorem bare_iff (e : Expr) :
    ∀ level, e.Bare level ↔ e.overrides = 0 ∧ e.needsGroup level = false := by
  induction e with
  | literal b => intro level; simp [Bare, overrides]
  | not e ih => intro level; simp [Bare, overrides, ih, and_comm]
  | and l r ihl ihr =>
      intro level
      have hparts : l.Bare .term ∧ r.Bare .factor ↔ (and l r).overrides = 0 := by
        rw [ihl, ihr]
        simp only [overrides, Nat.add_eq_zero_iff, Bool.toNat_eq_zero]
        exact ⟨fun ⟨⟨a, b⟩, c, d⟩ => ⟨⟨b, d⟩, a, c⟩, fun ⟨⟨b, d⟩, a, c⟩ => ⟨⟨a, b⟩, c, d⟩⟩
      cases level <;> simp [Bare, hparts]
  | or l r ihl ihr =>
      intro level
      have hparts : l.Bare .expr ∧ r.Bare .term ↔ (or l r).overrides = 0 := by
        rw [ihl, ihr]
        simp only [overrides, Nat.add_eq_zero_iff, Bool.toNat_eq_zero, needsGroup_expr]
        exact ⟨fun ⟨⟨a, _⟩, c, d⟩ => ⟨d, a, c⟩, fun ⟨d, a, c⟩ => ⟨⟨a, trivial⟩, c, d⟩⟩
      cases level <;> simp [Bare, hparts]

end Expr

/-- An operator adds no parenthesis. -/
theorem count_joined (op : Operator) (s t : List Char) :
    (s ++ op.symbol.toList ++ t).count '(' = s.count '(' + t.count '(' := by
  cases op <;> simp [Operator.symbol]

/-- Each override has a parenthesis of its own, and so has a tree that is too
    loose for the rule that derives it. -/
theorem overrides_le {level : Level} {s : List Char} {e : Expr} (h : Derives level s e) :
    e.overrides + (e.needsGroup level).toNat ≤ s.count '(' := by
  induction h with
  | trueWord => decide
  | falseWord => decide
  | @negation s e _ ih =>
      have hcount : ("!".toList ++ s).count '(' = s.count '(' := by simp
      rw [hcount, Expr.needsGroup_not]
      show (e.needsGroup .factor).toNat + e.overrides + 0 ≤ _
      omega
  | @group s e _ ih =>
      have hcount : ("(".toList ++ s ++ ")".toList).count '(' = s.count '(' + 1 := by simp
      have hone : (e.needsGroup .factor).toNat ≤ 1 := Bool.toNat_le _
      rw [Expr.needsGroup_expr] at ih
      change e.overrides + 0 ≤ _ at ih
      omega
  | @ofFactor s e _ ih =>
      have hle := e.needsGroup_term_le
      omega
  | @and s t l r _ _ ihl ihr =>
      have hcount : (s ++ "&&".toList ++ t).count '(' = _ := count_joined .and s t
      show (l.needsGroup .term).toNat + (r.needsGroup .factor).toNat
        + (l.overrides + r.overrides) + 0 ≤ _
      omega
  | @ofTerm s e _ ih =>
      rw [Expr.needsGroup_expr]
      exact Nat.le_trans (Nat.le_add_right ..) ih
  | @or s t l r _ _ ihl ihr =>
      have hcount : (s ++ "||".toList ++ t).count '(' = _ := count_joined .or s t
      rw [Expr.needsGroup_expr] at ihl
      change l.overrides + 0 ≤ _ at ihl
      show (r.needsGroup .term).toNat + (l.overrides + r.overrides) + 0 ≤ _
      omega

/-- What is a factor is derived by every rule. -/
theorem Derives.of_factor {s : List Char} {e : Expr} (h : Derives .factor s e) :
    ∀ level, Derives level s e
  | .factor => h
  | .term => .ofFactor h
  | .expr => .ofTerm (.ofFactor h)

/-- Parentheses make a factor of any text that has a tree. -/
theorem Derives.in_group {s : List Char} {e : Expr} {n : Nat} (h : Derives .expr s e)
    (hcount : s.count '(' = n) :
    ∃ t, Derives .factor t e ∧ t.count '(' = n + 1 :=
  ⟨_, .group h, by simp [hcount]⟩

/-- Every rule has a text for a tree in which there are no parentheses but
    those that its overrides need, and those around a tree that is too loose
    for the rule. -/
theorem sparse_text (e : Expr) :
    ∀ level, ∃ s, Derives level s e ∧
      s.count '(' = e.overrides + (e.needsGroup level).toNat := by
  induction e with
  | literal b =>
      intro level
      cases b with
      | true => exact ⟨_, Derives.trueWord.of_factor level, by simp [Expr.overrides]⟩
      | false => exact ⟨_, Derives.falseWord.of_factor level, by simp [Expr.overrides]⟩
  | not e ih =>
      intro level
      obtain ⟨s, hs, hcount⟩ := ih .factor
      exact ⟨_, hs.negation.of_factor level, by simp [Expr.overrides, hcount, Nat.add_comm]⟩
  | and l r ihl ihr =>
      intro level
      obtain ⟨s, hs, hl⟩ := ihl .term
      obtain ⟨t, ht, hr⟩ := ihr .factor
      have hd := hs.and ht
      have hcount : (s ++ "&&".toList ++ t).count '(' = (Expr.and l r).overrides := by
        refine (count_joined .and s t).trans ?_
        rw [hl, hr, Expr.overrides]
        omega
      cases level with
      | factor => exact hd.ofTerm.in_group hcount
      | term => exact ⟨_, hd, hcount⟩
      | expr => exact ⟨_, hd.ofTerm, hcount⟩
  | or l r ihl ihr =>
      intro level
      obtain ⟨s, hs, hl⟩ := ihl .expr
      obtain ⟨t, ht, hr⟩ := ihr .term
      have hd := hs.or ht
      have hcount : (s ++ "||".toList ++ t).count '(' = (Expr.or l r).overrides := by
        refine (count_joined .or s t).trans ?_
        rw [hl, hr, Expr.needsGroup_expr, Expr.overrides]
        show l.overrides + 0 + _ = _
        omega
      obtain ⟨u, hu, hone⟩ := hd.in_group hcount
      cases level with
      | factor => exact ⟨u, hu, hone⟩
      | term => exact ⟨u, hu.ofFactor, hone⟩
      | expr => exact ⟨_, hd, hcount⟩

namespace Reading

/-- PRECEDENCE IS OVERRIDDEN BY PARENTHESES ONLY: the tree of a text that is
    read has no more places where a node could not stand bare than the text has
    opening parentheses.  So a text without parentheses has a bare tree.  And
    the bound is the best there is: some text of the tree meets it. -/
theorem overrides_need_groups (text : String) (e : Expr) (h : readExpr text = .ok e) :
    e.overrides ≤ text.toList.count '(' ∧
    ('(' ∉ text.toList → e.overrides = 0 ∧ e.Bare .expr) ∧
    ∃ sparse, readExpr sparse = .ok e ∧ sparse.toList.count '(' = e.overrides := by
  have hle : e.overrides ≤ text.toList.count '(' :=
    Nat.le_trans (Nat.le_add_right ..) (overrides_le (readExpr_ok_iff.mp h))
  refine ⟨hle, ?_, ?_⟩
  · intro hnone
    rw [List.count_eq_zero_of_not_mem hnone] at hle
    have hzero : e.overrides = 0 := Nat.le_zero.mp hle
    exact ⟨hzero, (e.bare_iff .expr).mpr ⟨hzero, e.needsGroup_expr⟩⟩
  · obtain ⟨s, hs, hcount⟩ := sparse_text e .expr
    refine ⟨String.ofList s, readExpr_ok_iff.mpr ?_, ?_⟩
    · rw [String.toList_ofList]
      exact hs
    · rw [String.toList_ofList, hcount, Expr.needsGroup_expr]
      rfl

/-- Three of four groups are needed, one for each of three overrides; and where
    there is no group there is no override. -/
theorem overrides_need_groups_mixed :
    (∃ e, readExpr "!(true||false)&&(true&&(false))||(true||true)" = .ok e ∧
      e.overrides = 3 ∧
      e.overrides ≤ "!(true||false)&&(true&&(false))||(true||true)".toList.count '(') ∧
    ∃ e, readExpr "!!true&&false||true" = .ok e ∧ '(' ∉ "!!true&&false||true".toList ∧
      e.Bare .expr := by
  have hmixed : readExpr "!(true||false)&&(true&&(false))||(true||true)" =
      .ok (.or (.and (.not (.or (.literal true) (.literal false)))
        (.and (.literal true) (.literal false))) (.or (.literal true) (.literal true))) := rfl
  have hbare : readExpr "!!true&&false||true" =
      .ok (.or (.and (.not (.not (.literal true))) (.literal false)) (.literal true)) := rfl
  have hnone : '(' ∉ "!!true&&false||true".toList := by decide
  exact ⟨⟨_, hmixed, rfl, (overrides_need_groups _ _ hmixed).1⟩,
    _, hbare, hnone, ((overrides_need_groups _ _ hbare).2.1 hnone).2⟩

end Reading

end TruthExpr
