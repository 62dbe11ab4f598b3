import TruthExpr.Expr.View
import TruthExpr.Proofs.Agreement

/-! # Round trips — the source text of a tree reads back as the tree

    The source text puts every conjunction and every disjunction in
    parentheses, so it is a FACTOR of the grammar, whatever the tree: it may
    stand behind a sign of negation and on either side of an operator.  That
    is the invariant of the induction (`derives_source`); all else follows
    from it, for every engine and whatever the depth of the tree. -/

namespace TruthExpr

namespace Expr

/-- A binary node between parentheses is a factor if its operands are. -/
theorem derives_joined (op : Operator) {l r : Expr} (hl : Derives .factor l.source.toList l)
    (hr : Derives .factor r.source.toList r) :
    Derives .factor ("(" ++ l.source ++ op.symbol ++ r.source ++ ")").toList (op.build l r) := by
  have htext : ("(" ++ l.source ++ op.symbol ++ r.source ++ ")").toList =
      "(".toList ++ (l.source.toList ++ op.symbol.toList ++ r.source.toList) ++ ")".toList := by
    simp only [String.toList_append, List.append_assoc]
  rw [htext]
  refine .group ?_
  cases op with
  | and => exact .ofTerm (.and (.ofFactor hl) hr)
  | or => exact .or (.ofTerm (.ofFactor hl)) (.ofFactor hr)

/-- The source text of a tree is a factor with that tree. -/
theorem derives_source (e : Expr) : Derives .factor e.source.toList e := by
  induction e with
  | literal b =>
      cases b with
      | true => exact .trueWord
      | false => exact .falseWord
  | not e ih =>
      show Derives .factor ("!" ++ e.source).toList (.not e)
      rw [String.toList_append]
      exact .negation ih
  | and l r ihl ihr => exact derives_joined .and ihl ihr
  | or l r ihl ihr => exact derives_joined .or ihl ihr

/-- The source text of a tree is an expression with that tree. -/
theorem expr_derives_source (e : Expr) : Derives .expr e.source.toList e :=
  .ofTerm (.ofFactor (derives_source e))

end Expr

namespace Engine

/-- Prints what a text is read as. -/
def normalise (engine : Engine) (text : String) (tokenReader : Reader := Machine.readExpr) :
    Except ReadError String :=
  (engine.read text tokenReader).map Expr.source

variable {tokenReader : Reader}

theorem read_source (h : tokenReader.Exact) (engine : Engine) (e : Expr) :
    engine.read e.source tokenReader = .ok e :=
  (engine.read_ok_iff h).mpr e.expr_derives_source

/-- What has been printed from a text is printed as it is. -/
theorem normalise_of_normalise (hexact : tokenReader.Exact) (engine other : Engine)
    {text printed : String} (h : engine.normalise text tokenReader = .ok printed) :
    other.normalise printed tokenReader = .ok printed := by
  unfold normalise at h ⊢
  cases hr : engine.read text tokenReader with
  | ok e =>
      rw [hr] at h
      cases h
      rw [read_source hexact]
      rfl
  | error x =>
      rw [hr] at h
      cases h

end Engine

/-- ROUND TRIP: the source text of every tree is read back as the tree, by
    either engine, whichever exact reader of tokens it is given, and by every
    parser made from the rules.  So no two trees share a source text, and
    printing what has been read is done after one time. -/
theorem source_round_trip :
    (∀ tokenReader : Reader, tokenReader.Exact → ∀ (engine : Engine) (e : Expr),
      engine.read e.source tokenReader = .ok e) ∧
    (∀ (ε : Type) (e : Expr) (answer : Except ε RuleTree),
      RuleTree.Answers answer e.source.toList → answer.map RuleTree.build = .ok e) ∧
    (∀ e e₁ : Expr, e.source = e₁.source → e = e₁) ∧
    (∀ tokenReader : Reader, tokenReader.Exact →
      ∀ (engine other : Engine) (text printed : String),
        engine.normalise text tokenReader = .ok printed →
        other.normalise printed tokenReader = .ok printed) := by
  refine ⟨fun _ => Engine.read_source, ?_, ?_,
    fun _ hexact engine other _ _ => Engine.normalise_of_normalise hexact engine other⟩
  · intro ε e answer h
    exact (h.build_iff e).mpr e.expr_derives_source
  · intro e e₁ h
    have h₁ := e₁.expr_derives_source
    rw [← h] at h₁
    exact e.expr_derives_source.unique h₁

/-- A negated group comes back, and a text with needless parentheses loses
    them once. -/
theorem source_round_trip_negated_group :
    (RuleTree.Answers (.ok (.negate (.chain .and .trueWord [.falseWord])) : Except Unit RuleTree)
      (Expr.not (.and (.literal true) (.literal false))).source.toList ∧
    RuleTree.build (.negate (.chain .and .trueWord [.falseWord])) =
      .not (.and (.literal true) (.literal false))) ∧
    Engine.descent.normalise "((true))&&!(false)" = .ok "(true&&!false)" ∧
    Engine.tokens.normalise "(true&&!false)" = .ok "(true&&!false)" := by
  have hanswers : RuleTree.Answers
      (.ok (.negate (.chain .and .trueWord [.falseWord])) : Except Unit RuleTree)
      (Expr.not (.and (.literal true) (.literal false))).source.toList := by
    refine ⟨?_, fun _ h => nomatch h⟩
    intro t ht
    cases ht
    have hchain : RuleTree.Of .term "true&&false".toList (.chain .and .trueWord [.falseWord]) := by
      refine .chain .and (r := [("false".toList, .falseWord)]) .trueWord ?_
      intro part hpart
      obtain rfl := List.mem_singleton.mp hpart
      exact .falseWord
    have hgroup : RuleTree.Of .factor "(true&&false)".toList (.chain .and .trueWord [.falseWord]) :=
      .group (.single .or hchain)
    exact .single .or (.single .and (.negate hgroup))
  have hnormal : Engine.descent.normalise "((true))&&!(false)" = .ok "(true&&!false)" := rfl
  refine ⟨⟨hanswers, ?_⟩, hnormal,
    source_round_trip.2.2.2 _ Machine.exact .descent .tokens _ _ hnormal⟩
  exact Except.ok.inj (source_round_trip.2.1 Unit _ _ hanswers)

end TruthExpr
