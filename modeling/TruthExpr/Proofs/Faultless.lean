import TruthExpr.Proofs.Choices
import TruthExpr.Proofs.LeftSpine
import TruthExpr.Proofs.Nesting
import TruthExpr.Proofs.Traces
import TruthExpr.Proofs.Translation

/-! # Faultlessness — the grammar puts its parsers together rightly

    A fold is at fault if its row is no chain, and a choice if there is nothing
    to choose from.  Neither ever happens to the rules, because of what they
    are made of.  The route:

    * `alternates_of_separated`: a repetition with the sign of one operator
      reads a row of operands with that operator between them, so the fold of
      the row is a tree;
    * `of_alternatives_failed` and `of_words_failed`: the two choices of the
      grammar have a failure to merge, or have been told to give up;
    * `reading_answers`: so the reading of a text is given up for its depth or
      not at all, and every refusal is told as one of two kinds;
    * `never_at_fault` puts this together. -/

namespace TruthExpr

/-- A row of odd length with operands at the even places and one and the same
    operator at the odd ones. -/
def Alternates (op : Operator) (items : List ChainItem) : Prop :=
  items.length % 2 = 1 ∧ ∀ (i : Nat) (h : i < items.length),
    if i % 2 = 0 then ∃ e, items[i] = .inl e else items[i] = .inr op

namespace Grammar

open TruthExpr.Parser

variable {op : Operator} {p : Parser Expr} {c c₁ : Cursor} {items : List ChainItem}

/-! ## Rows of a repetition -/

/-- A sign stands for its operator alone. -/
theorem eq_of_signOf {y : Operator} (h : signOf op c = .parsed y c₁) : y = op := by
  cases hs : c.startsWith op.symbol with
  | true =>
      rw [signOf_of_startsWith hs] at h
      cases h
      rfl
  | false =>
      obtain ⟨f, hf⟩ := signOf_of_not_startsWith hs
      rw [hf] at h
      cases h

/-- Rounds with the sign of an operator read links with this operator. -/
theorem exists_links_of_rounds {n : Nat} (h : p.rounds (signOf op) n c = .parsed items c₁) :
    ∃ links, items = Expr.row links ∧ ∀ link ∈ links, link.op = op := by
  fun_induction rounds p (signOf op) n c generalizing items with
  | case1 | case3 =>
      cases h
      exact ⟨[], rfl, List.forall_mem_nil _⟩
  | case2 | case4 | case5 => cases h
  | case6 c y c₂ hy x c₃ hx n ih =>
      obtain ⟨rest, hrest, rfl⟩ := of_map_parsed h
      obtain ⟨links, rfl, hlinks⟩ := ih hrest
      exact ⟨⟨y, x⟩ :: links, rfl, List.forall_mem_cons.mpr ⟨eq_of_signOf hy, hlinks⟩⟩

/-- Links with one operator alternate with it. -/
theorem alternates_row (links : List Link) (h : ∀ link ∈ links, link.op = op) :
    ∀ x, Alternates op (.inl x :: Expr.row links) := by
  induction links with
  | nil =>
      intro x
      refine ⟨rfl, fun i hi => ?_⟩
      obtain rfl : i = 0 := Nat.lt_one_iff.mp hi
      exact ⟨x, rfl⟩
  | cons link links ih =>
      intro x
      obtain ⟨hop, hlinks⟩ := List.forall_mem_cons.mp h
      -- behind an operand and an operator the same row goes on
      obtain ⟨hodd, hplaces⟩ := ih hlinks link.operand
      refine ⟨?_, fun i hi => ?_⟩
      · show ((Expr.row links).length + 1 + 1 + 1) % 2 = 1
        change ((Expr.row links).length + 1) % 2 = 1 at hodd
        omega
      · match i, hi with
        | 0, _ => exact ⟨x, rfl⟩
        | 1, _ => exact congrArg Sum.inr hop
        | i + 2, hi =>
            rw [Nat.add_mod_right]
            exact hplaces i (Nat.lt_of_succ_lt_succ (Nat.lt_of_succ_lt_succ hi))

/-- Whatever its operand, a repetition with the sign of one operator reads a
    row that alternates and folds to a tree. -/
theorem alternates_of_separated (op : Operator) (h : p.separated (signOf op) c = .parsed items c₁) :
    Alternates op items ∧ ∃ e, Expr.foldChain items = .ok e := by
  obtain ⟨x, c₂, -, hrest⟩ := of_bind_parsed h
  obtain ⟨rest, hrounds, rfl⟩ := of_map_parsed hrest
  obtain ⟨links, rfl, hlinks⟩ := exists_links_of_rounds hrounds
  exact ⟨alternates_row links hlinks x, _, Expr.foldChain_row x links⟩

/-! ## The two choices -/

section Choices

variable {a : Nat} {f : Failure}

/-- A choice of orderly alternatives does not lack a failure to report. -/
theorem choice_ne_noAlternatives {α : Type} {ps : List (Parser α)} (hps : ∀ p ∈ ps, p.Orderly)
    (hne : ps ≠ []) (c : Cursor) : choice ps c ≠ .aborted .noAlternatives :=
  fun h => nomatch (orderly_choice hps hne).of_aborted h

/-- No factor is found because an operand behind a sign of negation is missing,
    or because all three alternatives decline. -/
theorem of_alternatives_failed (h : choice [negation a, group a, constant] c = .failed f) :
    (∃ g, negation a c = .failed g ∧ g.committed = true ∧ f = g.release) ∨
      ∃ g gs, Refusals [negation a, group a, constant] c (g :: gs) ∧ f = Failure.merge g gs := by
  refine (of_choice_failed h).imp_left ?_
  rintro ⟨p, hp, g, hg, hcommitted, rfl⟩
  simp only [List.mem_cons, List.not_mem_nil, or_false] at hp
  rcases hp with rfl | rfl | rfl
  · exact ⟨g, hg, hcommitted, rfl⟩
  · exact absurd hcommitted (Bool.eq_false_iff.mp (group_traced hg).2)
  · exact absurd hcommitted (Bool.eq_false_iff.mp (constant_traced hg).2)

/-- No truth value is found because both words decline. -/
theorem of_words_failed (h : choice [trueWord, falseWord] c = .failed f) :
    ∃ g gs, Refusals [trueWord, falseWord] c (g :: gs) ∧ f = Failure.merge g gs := by
  refine (of_choice_failed h).resolve_left ?_
  rintro ⟨p, hp, g, hg, hcommitted, rfl⟩
  simp only [List.mem_cons, List.not_mem_nil, or_false] at hp
  rcases hp with rfl | rfl <;>
    exact absurd hcommitted (Bool.eq_false_iff.mp (literal_traced hg).2)

end Choices

end Grammar

/-! ## Whole texts -/

namespace Reading

open Grammar

/-- A text is read, or refused for one of three reasons.  Each of them is told
    as one of the two kinds of refusals that say what is wrong. -/
theorem reading_answers (text : String) :
    (∃ e c, expr (allowance text.length) (Cursor.ofString text) = .parsed e c ∧
      parse text = .ok (e, c) ∧ readExpr text = .ok e) ∨
    ∃ f, parse text = .error f ∧ readExpr text = .error f.toError ∧
      ((expr (allowance text.length) (Cursor.ofString text) = .failed f ∧
          f.toError.kind = .malformed (some f)) ∨
        (∃ e c, expr (allowance text.length) (Cursor.ofString text) = .parsed e c ∧
          f = .trailing c.rest c.pos ∧ f.toError.kind = .trailing c.rest) ∨
        expr (allowance text.length) (Cursor.ofString text) = .aborted .nestedTooDeeply ∧
          f = ofFault .nestedTooDeeply ∧ f.toError.kind = .malformed (some f)) := by
  cases hp : parse text with
  | ok r =>
      obtain ⟨e, c⟩ := r
      refine Or.inl ⟨e, c, (expr_of_parse hp).1, rfl, ?_⟩
      rw [readExpr, hp]
  | error f =>
      refine Or.inr ⟨f, rfl, by rw [readExpr, hp], ?_⟩
      rcases parse_error_cases hp with ⟨hrun, hplain⟩ | ⟨e, c, hrun, rfl⟩ | ⟨hdeep, rfl⟩
      · refine Or.inl ⟨hrun, ?_⟩
        rw [Failure.toError, hplain]
      · exact Or.inr (Or.inl ⟨e, c, hrun, rfl, rfl⟩)
      · exact Or.inr (Or.inr ⟨hdeep, rfl, rfl⟩)

end Reading

namespace Grammar

open TruthExpr.Parser Reading

/-- NEVER AT FAULT: wherever a chain is collected, its row alternates between
    operands and the operator of the chain, and folds to a tree.  Wherever a
    choice of the grammar fails, there is at least one failure to merge, unless
    a negation makes it give up.  So every part of the grammar comes to a match
    or to a failure, and with a limited allowance it is given up for its depth
    or not at all.  Reading a text comes to a tree or to a failure, and the
    failure is told as malformed or as trailing text. -/
theorem never_at_fault :
    (∀ (a : Nat) (c c₁ : Cursor) (items : List ChainItem),
      ((factor a).separated andSign c = .parsed items c₁ →
        Alternates .and items ∧ ∃ e, Expr.foldChain items = .ok e) ∧
      ((term a).separated orSign c = .parsed items c₁ →
        Alternates .or items ∧ ∃ e, Expr.foldChain items = .ok e)) ∧
    (∀ (a : Nat) (c : Cursor),
      (choice [negation a, group a, constant] c ≠ .aborted .noAlternatives ∧
        ∀ f, choice [negation a, group a, constant] c = .failed f →
          (∃ g, negation a c = .failed g ∧ g.committed = true ∧ f = g.release) ∨
          ∃ g gs, Refusals [negation a, group a, constant] c (g :: gs) ∧
            f = Failure.merge g gs) ∧
      choice [trueWord, falseWord] c ≠ .aborted .noAlternatives ∧
        ∀ f, choice [trueWord, falseWord] c = .failed f →
          ∃ g gs, Refusals [trueWord, falseWord] c (g :: gs) ∧ f = Failure.merge g gs) ∧
    (∀ (rule : Rule) (c : Cursor),
      (∃ v c₁, rule.parser c = .parsed v c₁) ∨ ∃ f, rule.parser c = .failed f) ∧
    (∀ (level : Level) (a : Nat) (c : Cursor) (fault : Fault),
      ruleAt level a c = .aborted fault → fault = .nestedTooDeeply) ∧
    ∀ text : String,
      (∃ e c, expr (allowance text.length) (Cursor.ofString text) = .parsed e c ∧
        parse text = .ok (e, c) ∧ readExpr text = .ok e) ∨
      ∃ f, parse text = .error f ∧ readExpr text = .error f.toError ∧
        ((expr (allowance text.length) (Cursor.ofString text) = .failed f ∧
            f.toError.kind = .malformed (some f)) ∨
          (∃ e c, expr (allowance text.length) (Cursor.ofString text) = .parsed e c ∧
            f = .trailing c.rest c.pos ∧ f.toError.kind = .trailing c.rest) ∨
          expr (allowance text.length) (Cursor.ofString text) = .aborted .nestedTooDeeply ∧
            f = ofFault .nestedTooDeeply ∧ f.toError.kind = .malformed (some f)) := by
  refine ⟨?_, ?_, ?_, ?_, reading_answers⟩
  · exact fun a c c₁ items => ⟨alternates_of_separated .and, alternates_of_separated .or⟩
  · intro a c
    have horderly := orderly_alternatives (orderly_negation a) (orderly_group a)
    exact ⟨⟨choice_ne_noAlternatives horderly (List.cons_ne_nil _ _) c,
        fun f => of_alternatives_failed⟩,
      choice_ne_noAlternatives orderly_words (List.cons_ne_nil _ _) c, fun f => of_words_failed⟩
  · intro rule c
    cases hrun : rule.parser c with
    | parsed v c₁ => exact Or.inl ⟨v, c₁, rfl⟩
    | failed f => exact Or.inr ⟨f, rfl⟩
    | aborted fault => exact absurd hrun (rule.parser_ne_aborted c fault)
  · exact fun level a c fault => (orderly_ruleAt level a).of_aborted

/-- Four places before the text, a chain begins with the word that ends the
    text, and goes on with the sign that begins it. -/
theorem never_at_fault_before_text :
    let c : Cursor := { Cursor.ofString "&&true" with pos := -4 }
    ∃ items c₁, (factor 0).separated andSign c = .parsed items c₁ ∧
      items.length = 3 ∧ c₁.pos = 6 ∧ Alternates .and items ∧
      ∃ e, Expr.foldChain items = .ok e := by
  intro c
  have hrun : (factor 0).separated andSign c = .parsed
      [.inl (.literal true), .inr .and, .inl (.literal true)] { c with pos := 6 } := rfl
  exact ⟨_, _, hrun, rfl, rfl, (never_at_fault.1 0 c _ _).1 hrun⟩

end Grammar

end TruthExpr
