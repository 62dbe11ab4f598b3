import TruthExpr.Proofs.Traces
import TruthExpr.Proofs.Translation

/-! # Recursion — the rules call each other, and every call ends

    The rules of the grammar are defined by each other, and an allowance makes
    functions of them.  Here they are taken without it: five parsers that call
    each other as the rules do, and nothing said of how deep the calls go.  The
    route:

    * `recursive_withoutLimit`: the rules with an ample allowance are such
      parsers;
    * `Recursive.eq_withoutLimit`: there are no others.  Whatever comes to an
      answer with some allowance comes to the same answer in all of them, and an
      ample one suffices everywhere;
    * `every_call_ends`: so the calls end, wherever they begin, and what they
      come to lies ahead. -/

namespace TruthExpr

namespace Grammar

open TruthExpr.Parser

/-- Parsers for the five rules that need each other. -/
@[ext]
structure Rules where
  expr : Parser Expr
  term : Parser Expr
  factor : Parser Expr
  negation : Parser Expr
  group : Parser Expr

namespace Rules

/-- The parsers call each other as the grammar has it. -/
structure Recursive (r : Rules) : Prop where
  expr : r.expr = exprOf r.term
  term : r.term = termOf r.factor
  factor : r.factor = factorOf r.negation r.group
  negation : r.negation = negationOf r.factor
  group : r.group = groupOf r.expr

/-- The rules with an ample allowance, wherever they are run. -/
def withoutLimit : Rules where
  expr := unlimited Grammar.expr
  term := unlimited Grammar.term
  factor := unlimited Grammar.factor
  negation := unlimited Grammar.negation
  group := unlimited Grammar.group

/-- The parser of a level. -/
def ofLevel (r : Rules) : Level → Parser Expr
  | .expr => r.expr
  | .term => r.term
  | .factor => r.factor

end Rules

variable {p : Parser Expr}

/-- What agrees with a rule wherever its allowance suffices is the rule with an
    ample one, if that always suffices. -/
theorem eq_unlimited {rule : Nat → Parser Expr} (h : ∀ a, Approximates (rule a) p)
    (hends : ∀ c, unlimited rule c ≠ .aborted .nestedTooDeeply) : p = unlimited rule := by
  funext c
  exact (h (ample c) c).resolve_left (hends c)

/-- A negation with an allowance approximates one whose operand has none to keep
    to. -/
theorem approximates_negation (h : ∀ a, Approximates (factor a) p) (a : Nat) :
    Approximates (negation a) (negationOf p) :=
  approximates_negationOf
    (paying_cases (motive := fun r => Approximates r p) (approximates_spent p) h negationCost a)

theorem approximates_group (h : ∀ a, Approximates (expr a) p) (a : Nat) :
    Approximates (group a) (groupOf p) :=
  approximates_groupOf
    (paying_cases (motive := fun r => Approximates r p) (approximates_spent p) h groupCost a)

/-- Without a limit, a negation calls a factor without a limit. -/
theorem negationOf_unlimited : negationOf (unlimited factor) = unlimited negation :=
  eq_unlimited (approximates_negation (approximates_unlimited .factor)) fun c =>
    answers_negation (Nat.le_refl (ample c)) c (Nat.le_refl _)

/-- And so does a group with an expression. -/
theorem groupOf_unlimited : groupOf (unlimited expr) = unlimited group :=
  eq_unlimited (approximates_group (approximates_unlimited .expr)) fun c =>
    answers_group (Nat.le_refl (ample c)) c (Nat.le_refl _)

/-- A factor without a limit is built from a negation and a group without one:
    with any allowance, both come to the same or are given up, and neither is
    ever given up without one. -/
theorem factorOf_unlimited :
    factorOf (unlimited negation) (unlimited group) = unlimited factor := by
  refine eq_unlimited (fun a => ?_) (unlimited_ne_aborted .factor)
  rw [factor_eq, ← negationOf_unlimited, ← groupOf_unlimited]
  exact approximates_factorOf (approximates_negation (approximates_unlimited .factor) a)
    (approximates_group (approximates_unlimited .expr) a)

theorem termOf_unlimited : termOf (unlimited factor) = unlimited term :=
  eq_unlimited (fun a => approximates_termOf (approximates_unlimited .factor a))
    (unlimited_ne_aborted .term)

theorem exprOf_unlimited : exprOf (unlimited term) = unlimited expr :=
  eq_unlimited (fun a => approximates_exprOf (approximates_unlimited .term a))
    (unlimited_ne_aborted .expr)

namespace Rules

variable {r : Rules}

/-- The rules without a limit are as the grammar says. -/
theorem recursive_withoutLimit : Recursive withoutLimit where
  expr := exprOf_unlimited.symm
  term := termOf_unlimited.symm
  factor := factorOf_unlimited.symm
  negation := negationOf_unlimited.symm
  group := groupOf_unlimited.symm

/-- Whatever comes to an answer with some allowance comes to it in all parsers
    that call each other so. -/
theorem Recursive.approximates (h : r.Recursive) (a : Nat) :
    Approximates (Grammar.factor a) r.factor ∧ Approximates (Grammar.term a) r.term ∧
      Approximates (Grammar.expr a) r.expr := by
  refine rule_induction (motive := fun level p => Approximates p (r.ofLevel level)) ?_ ?_ ?_ ?_ a
  · exact fun level => approximates_spent _
  · intro p q hp hq
    show Approximates _ r.factor
    rw [h.factor, h.negation, h.group]
    exact approximates_factorOf (approximates_negationOf hp) (approximates_groupOf hq)
  · intro p hp
    show Approximates _ r.term
    rw [h.term]
    exact approximates_termOf hp
  · intro p hp
    show Approximates _ r.expr
    rw [h.expr]
    exact approximates_exprOf hp

/-- They are the rules with an ample allowance. -/
theorem Recursive.eq_withoutLimit (h : r.Recursive) : r = withoutLimit := by
  have hexpr : r.expr = unlimited Grammar.expr :=
    eq_unlimited (fun a => (h.approximates a).2.2) (unlimited_ne_aborted .expr)
  have hterm : r.term = unlimited Grammar.term :=
    eq_unlimited (fun a => (h.approximates a).2.1) (unlimited_ne_aborted .term)
  have hfactor : r.factor = unlimited Grammar.factor :=
    eq_unlimited (fun a => (h.approximates a).1) (unlimited_ne_aborted .factor)
  refine Rules.ext hexpr hterm hfactor ?_ ?_
  · rw [h.negation, hfactor]
    exact negationOf_unlimited
  · rw [h.group, hexpr]
    exact groupOf_unlimited

/-- They are the only ones. -/
theorem recursive_iff : r.Recursive ↔ r = withoutLimit :=
  ⟨Recursive.eq_withoutLimit, fun h => h ▸ recursive_withoutLimit⟩

end Rules

/-- EVERY CALL ENDS: five parsers that call each other as the rules do, with
    nothing to limit how deep the calls go, are the rules with an ample
    allowance.  Called anywhere, before the text and past its end included,
    every part of the grammar comes to a match or to a failure.  A match keeps
    to the text and ends behind its start and inside the text.  A failure lies
    between its start and the end of the text, if that is ahead, and its frames
    lead from where it lies back to the start.  Of all parts only a negation
    commits its caller, and it does. -/
theorem every_call_ends :
    (∀ r : Rules, r.Recursive ↔ r = .withoutLimit) ∧
    (∀ (rule : Rule) (c : Cursor),
      (∀ fault, rule.parser c ≠ .aborted fault) ∧
      (∀ v c₁, rule.parser c = .parsed v c₁ →
        c₁.text = c.text ∧ c.pos < c₁.pos ∧ c₁.pos ≤ c.text.size) ∧
      ∀ f, rule.parser c = .failed f →
        (c.pos ≤ f.position ∧ f.position ≤ max c.pos c.text.size) ∧
        f.frames.Pairwise (fun inner outer => outer.position ≤ inner.position) ∧
        (∀ g ∈ f.frames, c.pos ≤ g.position ∧ g.position ≤ f.position) ∧
        (f.committed = true → rule = .negation)) ∧
    ∃ c f, Rule.negation.parser c = .failed f ∧ f.committed = true := by
  refine ⟨fun r => Rules.recursive_iff, ?_, Cursor.ofString "!", _, rfl, rfl⟩
  intro rule c
  refine ⟨rule.parser_ne_aborted c, fun v c₁ h => rule.orderly.of_parsed h, ?_⟩
  intro f h
  obtain ⟨htraced, hcommitted⟩ := Rule.traced h
  exact ⟨⟨htraced.ahead, htraced.inside⟩, htraced.falling, htraced.between, hcommitted⟩

/-- One place before the text, the descent opens the last character as a
    group, reads the text from its beginning and opens it a second time. -/
theorem every_call_ends_before_text :
    let c : Cursor := { Cursor.ofString "!(" with pos := -1 }
    ∃ f, Rule.expr.parser c = .failed f ∧ f.position = 2 ∧
      f.frames = [⟨"factor", -1⟩, ⟨"term", -1⟩, ⟨"expr", -1⟩] ∧
      f.frames.Pairwise (fun inner outer => outer.position ≤ inner.position) ∧
      ∀ g ∈ f.frames, c.pos ≤ g.position ∧ g.position ≤ f.position := by
  intro c
  obtain ⟨-, -, hfailed⟩ := every_call_ends.2.1 .expr c
  obtain ⟨-, hfalling, hbetween, -⟩ := hfailed _ rfl
  exact ⟨_, rfl, rfl, rfl, hfalling, hbetween⟩

end Grammar

end TruthExpr
