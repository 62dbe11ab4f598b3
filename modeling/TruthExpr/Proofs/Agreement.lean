import TruthExpr.Proofs.Acceptance
import TruthExpr.Proofs.RuleTree
import TruthExpr.Proofs.TokenMachine

/-! # Agreement — all readers accept the same texts, with the same trees

    The descent goes through the characters, takes back what it has begun,
    and pays for its nesting.  The token machine goes through the tokens and
    never looks back.  A parser made from the rules answers a tree that
    expressions are built from.  Each of them is measured by the derivations
    of the grammar, so `readers_agree` has nothing left to compare.

    Of a reader that comes from elsewhere, this is all that is asked: it is
    EXACT if it reads just the texts that the grammar derives, each as the tree
    it is derived with.  The token machine is, and so is whatever builds its
    trees from the answers of a parser made from the rules. -/

namespace TruthExpr

/-- What is built from an answer to a text is what the grammar derives. -/
theorem RuleTree.Answers.build_iff {ε : Type} {answer : Except ε RuleTree} {s : List Char}
    (h : Answers answer s) (e : Expr) : answer.map build = .ok e ↔ Derives .expr s e := by
  cases ha : answer with
  | ok t =>
      have hd := derives_of_ruleTree (h.tree t ha)
      constructor
      · intro hok
        cases hok
        exact hd
      · intro he
        exact congrArg Except.ok (hd.unique he)
  | error x =>
      constructor
      · intro hok
        cases hok
      · -- a derived text has a rule tree, so it was not refused
        intro he
        obtain ⟨t, ht, -⟩ := ruleTree_of_derives he
        exact absurd ht (h.refusal x ha t)

/-! ## Exact readers -/

/-- The reader reads just the texts that the grammar derives, each with the tree
    that it is derived with. -/
def Reader.Exact (read : Reader) : Prop :=
  ∀ (text : String) (e : Expr), read text = .ok e ↔ Derives .expr text.toList e

theorem Machine.exact : Reader.Exact Machine.readExpr :=
  fun _ _ => Machine.readExpr_ok_iff

/-- Whatever a parser made from the rules says of the texts that it refuses, a
    reader that builds its answers into expressions is exact. -/
theorem RuleTree.Answers.exact {ε : Type} {parse : String → Except ε RuleTree}
    (h : ∀ text, Answers (parse text) text.toList) (refuse : String → ε → ReadError) :
    Reader.Exact fun text => ((parse text).map build).mapError (refuse text) := by
  intro text e
  rw [← (h text).build_iff]
  show ((parse text).map build).mapError (refuse text) = .ok e ↔ (parse text).map build = .ok e
  cases parse text with
  | ok t =>
      constructor <;>
        · intro hok
          cases hok
          rfl
  | error x =>
      constructor <;>
        · intro hok
          cases hok

/-- Whatever the engine, a text is read as `e` exactly when the grammar derives
    it with the tree `e`. -/
theorem Engine.read_ok_iff (engine : Engine) {tokenReader : Reader} (h : tokenReader.Exact)
    {text : String} {e : Expr} :
    engine.read text tokenReader = .ok e ↔ Derives .expr text.toList e := by
  cases engine with
  | descent => exact Reading.readExpr_ok_iff
  | tokens => exact h text e

/-! ## All readers -/

/-- AGREEMENT: the descent and the token machine read the same texts, with the
    same trees, and so does every parser made from the rules whose answers are
    built into expressions.  Any other text is refused by both readers: by the
    descent because it does not fit the grammar or nests too deep, by the
    machine because it does not fit. -/
theorem readers_agree (text : String) :
    (∀ e, Reading.readExpr text = .ok e ↔ Machine.readExpr text = .ok e) ∧
    (∀ (ε : Type) (answer : Except ε RuleTree), RuleTree.Answers answer text.toList →
      ∀ e, Reading.readExpr text = .ok e ↔ answer.map RuleTree.build = .ok e) ∧
    ((∀ e, Reading.readExpr text ≠ .ok e) →
      (∃ x, Reading.readExpr text = .error x ∧ x.kind ≠ .general ∧
        ∀ fault, Grammar.expr (Reading.allowance text.length) (Cursor.ofString text)
          = .aborted fault → fault = .nestedTooDeeply) ∧
      ∃ y, Machine.readExpr text = .error y ∧ y.kind = .malformed none) := by
  refine ⟨?_, ?_, ?_⟩
  · intro e
    rw [Reading.readExpr_ok_iff, Machine.readExpr_ok_iff]
  · intro ε answer h e
    rw [Reading.readExpr_ok_iff, h.build_iff]
  · intro hnone
    constructor
    · cases hx : Reading.readExpr text with
      | ok e => exact absurd hx (hnone e)
      | error x =>
          refine ⟨x, rfl, ?_, ?_⟩
          · rcases Reading.refusal_cases hx with ⟨f, -, rfl⟩ | ⟨e, c, -, rfl⟩ | ⟨-, rfl⟩ <;>
              exact fun h => nomatch h
          · intro fault hrun
            have ho := Grammar.orderly_expr (Reading.allowance text.length) (Cursor.ofString text)
            rw [hrun] at ho
            exact ho
    · cases hr : Machine.read text.toList with
      | ok e =>
          have hd := (Machine.read_eq_ok_iff text.toList e).mp hr
          exact absurd (Reading.readExpr_ok_iff.mpr hd) (hnone e)
      | error r =>
          refine ⟨r.toError text.toList, ?_, rfl⟩
          rw [Machine.readExpr, hr]
          rfl

/-- A chain of three operands has one node; its expression leans to the
    left.  A parenthesis that is not closed is refused by both readers. -/
theorem readers_agree_chain :
    RuleTree.Answers (.ok (.chain .or .trueWord [.trueWord, .negate .falseWord]) :
      Except Unit RuleTree) "true||true||!false".toList ∧
    Reading.readExpr "true||true||!false" =
      .ok (.or (.or (.literal true) (.literal true)) (.not (.literal false))) ∧
    (∃ x, Reading.readExpr "(true" = .error x ∧ x.kind ≠ .general) ∧
    ∃ y, Machine.readExpr "(true" = .error y ∧ y.kind = .malformed none := by
  have hanswers : RuleTree.Answers
      (.ok (.chain .or .trueWord [.trueWord, .negate .falseWord]) : Except Unit RuleTree)
      "true||true||!false".toList := by
    refine ⟨?_, fun _ h => nomatch h⟩
    intro t ht
    cases ht
    refine .chain .or (s := "true".toList)
      (r := [("true".toList, .trueWord), ("!false".toList, .negate .falseWord)])
      (.single .and .trueWord) ?_
    intro part hpart
    simp only [List.mem_cons, List.not_mem_nil, or_false] at hpart
    rcases hpart with rfl | rfl
    · exact .single .and .trueWord
    · exact .single .and (.negate .falseWord)
  have hrefused : ∀ e, Reading.readExpr "(true" ≠ .ok e := fun e h => nomatch h
  obtain ⟨⟨x, hx, hkind, -⟩, hy⟩ := (readers_agree "(true").2.2 hrefused
  exact ⟨hanswers, ((readers_agree _).2.1 Unit _ hanswers _).mpr rfl, ⟨x, hx, hkind⟩, hy⟩

end TruthExpr
