import TruthExpr.Expr.View
import TruthExpr.Proofs.RoundTrip
import TruthExpr.Proofs.Spelling

/-! # Conservation — no token is lost between a text, its tree and its source

    Read from left to right, the signs and words of a tree are its YIELD.  It
    is what is left of every text with that tree when the parentheses are
    taken out (`derives_yield`).  The source of the tree is such a text, so a
    text and its source only differ in parentheses; and the walk that measures
    the tree counts what is in the yield, though in another order
    (`adds_addTo`). -/

namespace TruthExpr

/-- The token is one of the two parentheses. -/
def Token.isParenthesis : Token → Bool
  | .opening | .closing => true
  | _ => false

/-- A text without its parentheses. -/
def withoutParentheses (s : List Char) : List Char := s.filter fun c => c ≠ '(' ∧ c ≠ ')'

/-- Tokens without the parentheses. -/
def bare (ts : List Token) : List Token := ts.filter fun t => !t.isParenthesis

theorem bare_append (ts us : List Token) : bare (ts ++ us) = bare ts ++ bare us :=
  List.filter_append ..

theorem bare_cons {t : Token} (h : t.isParenthesis = false) (ts : List Token) :
    bare (t :: ts) = t :: bare ts :=
  List.filter_cons_of_pos (by rw [h]; rfl)

theorem withoutParentheses_append (s t : List Char) :
    withoutParentheses (s ++ t) = withoutParentheses s ++ withoutParentheses t :=
  List.filter_append ..

/-- Taking out the parentheses is the same for characters and for tokens. -/
theorem withoutParentheses_spell (ts : List Token) :
    withoutParentheses (spell ts) = spell (bare ts) := by
  induction ts with
  | nil => rfl
  | cons t ts ih =>
      have ht : withoutParentheses t.text.toList = spell (bare [t]) := by cases t <;> rfl
      rw [spell_cons, withoutParentheses_append, ht, ih, ← spell_append, ← bare_append]
      rfl

/-- What is no parenthesis is there as often as before. -/
theorem count_bare {t : Token} (h : t.isParenthesis = false) (ts : List Token) :
    (bare ts).count t = ts.count t :=
  List.count_filter (by rw [h]; rfl)

/-- So it occurs in the one row if it does in the other. -/
theorem mem_bare_iff {t : Token} (h : t.isParenthesis = false) {ts : List Token} :
    t ∈ bare ts ↔ t ∈ ts := by
  rw [bare, List.mem_filter, h]
  exact ⟨And.left, fun hmem => ⟨hmem, rfl⟩⟩

namespace Expr

/-- The signs and words of a tree, from left to right. -/
def yield : Expr → List Token
  | .literal true => [.trueWord]
  | .literal false => [.falseWord]
  | .not e => .bang :: e.yield
  | .and l r => l.yield ++ .andSign :: r.yield
  | .or l r => l.yield ++ .orSign :: r.yield

end Expr

/-- Two texts with the sign of an operator between them, as tokens. -/
theorem yield_joined (op : Operator) {t : Token} (ht : t.isParenthesis = false)
    (hop : t.text = op.symbol) {s₁ s₂ : List Char} {l r : Expr}
    (hl : ∃ ts, s₁ = spell ts ∧ bare ts = l.yield)
    (hr : ∃ ts, s₂ = spell ts ∧ bare ts = r.yield) :
    ∃ ts, s₁ ++ op.symbol.toList ++ s₂ = spell ts ∧ bare ts = l.yield ++ t :: r.yield := by
  obtain ⟨ts, rfl, hl⟩ := hl
  obtain ⟨us, rfl, hr⟩ := hr
  refine ⟨ts ++ t :: us, ?_, ?_⟩
  · rw [spell_append, spell_cons, hop, List.append_assoc]
  · rw [bare_append, bare_cons ht, hl, hr]

/-- Every text of a tree consists of its yield and of parentheses. -/
theorem derives_yield {level : Level} {s : List Char} {e : Expr} (h : Derives level s e) :
    ∃ ts, s = spell ts ∧ bare ts = e.yield := by
  induction h with
  | trueWord => exact ⟨[.trueWord], (spell_singleton .trueWord).symm, rfl⟩
  | falseWord => exact ⟨[.falseWord], (spell_singleton .falseWord).symm, rfl⟩
  | negation _ ih =>
      obtain ⟨ts, rfl, hyield⟩ := ih
      refine ⟨.bang :: ts, (spell_cons .bang ts).symm, ?_⟩
      rw [bare_cons rfl, hyield]
      rfl
  | group _ ih =>
      obtain ⟨ts, rfl, hyield⟩ := ih
      refine ⟨[.opening] ++ ts ++ [.closing], ?_, ?_⟩
      · rw [spell_append, spell_append, spell_singleton, spell_singleton]
        rfl
      · rw [bare_append, bare_append, hyield]
        exact List.append_nil _
  | ofFactor _ ih => exact ih
  | ofTerm _ ih => exact ih
  | and _ _ ihl ihr => exact yield_joined .and rfl rfl ihl ihr
  | or _ _ ihl ihr => exact yield_joined .or rfl rfl ihl ihr

/-- Two texts of one tree only differ in parentheses. -/
theorem withoutParentheses_eq {level other : Level} {s s₁ : List Char} {e : Expr}
    (h : Derives level s e) (h₁ : Derives other s₁ e) :
    withoutParentheses s = withoutParentheses s₁ := by
  obtain ⟨ts, rfl, hyield⟩ := derives_yield h
  obtain ⟨us, rfl, hyield₁⟩ := derives_yield h₁
  rw [withoutParentheses_spell, withoutParentheses_spell, hyield, hyield₁]

namespace Measure

/-- The second measure is the first one with some tokens counted, in whatever
    order. -/
structure Adds (ts : List Token) (m m₁ : Measure) : Prop where
  negations : m₁.negations = m.negations + ts.count .bang
  conjunctions : m₁.conjunctions = m.conjunctions + ts.count .andSign
  disjunctions : m₁.disjunctions = m.disjunctions + ts.count .orSign
  hasTrue : m₁.hasTrue = true ↔ m.hasTrue = true ∨ .trueWord ∈ ts
  hasFalse : m₁.hasFalse = true ↔ m.hasFalse = true ∨ .falseWord ∈ ts

variable {m m₁ m₂ : Measure} {ts us : List Token}

/-- Two rows one behind the other add what each of them adds. -/
theorem Adds.trans (h : Adds ts m m₁) (h₁ : Adds us m₁ m₂) : Adds (ts ++ us) m m₂ where
  negations := by rw [h₁.negations, h.negations, List.count_append, Nat.add_assoc]
  conjunctions := by rw [h₁.conjunctions, h.conjunctions, List.count_append, Nat.add_assoc]
  disjunctions := by rw [h₁.disjunctions, h.disjunctions, List.count_append, Nat.add_assoc]
  hasTrue := by rw [h₁.hasTrue, h.hasTrue, List.mem_append, or_assoc]
  hasFalse := by rw [h₁.hasFalse, h.hasFalse, List.mem_append, or_assoc]

/-- The order of the tokens does not matter. -/
theorem Adds.of_perm (h : Adds ts m m₁) (hperm : ts.Perm us) : Adds us m m₁ where
  negations := by rw [h.negations, hperm.count_eq]
  conjunctions := by rw [h.conjunctions, hperm.count_eq]
  disjunctions := by rw [h.disjunctions, hperm.count_eq]
  hasTrue := by rw [h.hasTrue, hperm.mem_iff]
  hasFalse := by rw [h.hasFalse, hperm.mem_iff]

/-- Parentheses are not counted. -/
theorem Adds.of_bare (h : Adds (bare ts) m m₁) : Adds ts m m₁ where
  negations := by rw [h.negations, count_bare rfl]
  conjunctions := by rw [h.conjunctions, count_bare rfl]
  disjunctions := by rw [h.disjunctions, count_bare rfl]
  hasTrue := by rw [h.hasTrue, mem_bare_iff rfl]
  hasFalse := by rw [h.hasFalse, mem_bare_iff rfl]

/-- A word adds itself as a literal, and nothing to the counts. -/
theorem adds_word (m : Measure) (depth : Nat) (b : Bool) :
    Adds (Expr.literal b).yield m ((m.enter depth).addLiteral b) := by
  cases b <;> constructor <;> simp [enter, addLiteral, Expr.yield]

/-- Each sign adds one to its own count. -/
theorem adds_bang (m : Measure) (depth : Nat) :
    Adds [.bang] m { m.enter depth with negations := (m.enter depth).negations + 1 } := by
  constructor <;> simp [enter]

theorem adds_andSign (m : Measure) (depth : Nat) :
    Adds [.andSign] m { m.enter depth with conjunctions := (m.enter depth).conjunctions + 1 } := by
  constructor <;> simp [enter]

theorem adds_orSign (m : Measure) (depth : Nat) :
    Adds [.orSign] m { m.enter depth with disjunctions := (m.enter depth).disjunctions + 1 } := by
  constructor <;> simp [enter]

/-- The sign between two operands is counted first, and the right operand
    before the left one. -/
theorem Adds.around {t : Token} {ls rs : List Token} {m₃ : Measure} (hsign : Adds [t] m m₁)
    (hright : Adds rs m₁ m₂) (hleft : Adds ls m₂ m₃) : Adds (ls ++ t :: rs) m m₃ :=
  ((hsign.trans hright).trans hleft).of_perm List.perm_append_comm

/-- Measuring a tree counts its yield. -/
theorem adds_addTo (e : Expr) :
    ∀ (depth : Nat) (m : Measure), Adds e.yield m (e.addTo depth m) := by
  induction e with
  | literal b => exact fun depth m => adds_word m depth b
  | not e ih => exact fun depth m => (adds_bang m depth).trans (ih (depth + 1) _)
  | and l r ihl ihr =>
      exact fun depth m => (adds_andSign m depth).around (ihr (depth + 1) _) (ihl (depth + 1) _)
  | or l r ihl ihr =>
      exact fun depth m => (adds_orSign m depth).around (ihr (depth + 1) _) (ihl (depth + 1) _)

theorem true_mem_literals (m : Measure) : true ∈ m.literals ↔ m.hasTrue = true := by
  simp [literals]

theorem false_mem_literals (m : Measure) : false ∈ m.literals ↔ m.hasFalse = true := by
  simp [literals]

end Measure

/-- CONSERVATION: a text that is read as some tree and the source text of the
    tree are the same but for their parentheses.  So the measure of the tree
    has each sign as often as the text has it as a token, and each word just
    if the text has it.  (The tokens of a text are determined by
    `spell_injective`.) -/
theorem tokens_conserved (text : String) (e : Expr) (h : Reading.readExpr text = .ok e) :
    withoutParentheses text.toList = withoutParentheses e.source.toList ∧
    ∃ ts, text.toList = spell ts ∧
      e.measure.negations = ts.count .bang ∧
      e.measure.conjunctions = ts.count .andSign ∧
      e.measure.disjunctions = ts.count .orSign ∧
      e.measure.operators =
        [("!", ts.count .bang), ("&&", ts.count .andSign), ("||", ts.count .orSign)].filter
          (·.2 ≠ 0) ∧
      (true ∈ e.measure.literals ↔ .trueWord ∈ ts) ∧
      (false ∈ e.measure.literals ↔ .falseWord ∈ ts) := by
  have hd := Reading.readExpr_ok_iff.mp h
  refine ⟨withoutParentheses_eq hd e.expr_derives_source, ?_⟩
  obtain ⟨ts, hspell, hyield⟩ := derives_yield hd
  have hadds : Measure.Adds (bare ts) {} e.measure := by
    rw [hyield]
    exact Measure.adds_addTo e 1 {}
  have hcounts := hadds.of_bare
  have hneg : e.measure.negations = ts.count .bang := hcounts.negations.trans (Nat.zero_add _)
  have hconj : e.measure.conjunctions = ts.count .andSign :=
    hcounts.conjunctions.trans (Nat.zero_add _)
  have hdisj : e.measure.disjunctions = ts.count .orSign :=
    hcounts.disjunctions.trans (Nat.zero_add _)
  refine ⟨ts, hspell, hneg, hconj, hdisj, ?_, ?_, ?_⟩
  · rw [Measure.operators, hneg, hconj, hdisj]
  · rw [Measure.true_mem_literals, hcounts.hasTrue]
    exact or_iff_right Bool.false_ne_true
  · rw [Measure.false_mem_literals, hcounts.hasFalse]
    exact or_iff_right Bool.false_ne_true

/-- Needless parentheses are all that is lost. -/
theorem tokens_conserved_needless_groups :
    Reading.readExpr "((true))&&!(false)||true" =
      .ok (.or (.and (.literal true) (.not (.literal false))) (.literal true)) ∧
    withoutParentheses "((true))&&!(false)||true".toList = "true&&!false||true".toList ∧
    withoutParentheses "((true&&!false)||true)".toList = "true&&!false||true".toList := by
  have hread : Reading.readExpr "((true))&&!(false)||true" =
      .ok (.or (.and (.literal true) (.not (.literal false))) (.literal true)) := rfl
  have hsource : withoutParentheses "((true))&&!(false)||true".toList =
      withoutParentheses "((true&&!false)||true)".toList :=
    (tokens_conserved _ _ hread).1
  refine ⟨hread, by decide, ?_⟩
  rw [← hsource]
  decide

end TruthExpr
