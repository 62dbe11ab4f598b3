import TruthExpr.Proofs.Agreement
import TruthExpr.Proofs.Counts

/-! # Output lengths — what is answered to a text is bounded by the text

    Every character of a text that is an expression is accounted for in its
    tree, and the ACCOUNT is exact:

    * a text has a character for each node and three more, four more for each
      sign between operands, two more for each pair of parentheses and one more
      for each word `false`;
    * four times the length of a text is three times the length of its tree's
      source text and four more, eight more for each pair of parentheses and
      one more for each sign of negation and each word `false`.

    Each rule of the grammar keeps the account (`Derives.account`).  A bound is
    what is left of it when the additions are dropped, so it is met by the texts
    that have nothing to add. -/

namespace TruthExpr

namespace Expr

theorem height_le_nodes (e : Expr) : e.height ≤ e.nodes.length := by
  induction e with
  | literal b => exact Nat.le_refl 1
  | not e ih => exact Nat.succ_le_succ ih
  | and l r ihl ihr | or l r ihl ihr =>
      show max l.height r.height + 1 ≤ (l.nodes ++ r.nodes).length + 1
      rw [List.length_append]
      omega

theorem length_source_not (e : Expr) : (not e).source.length = e.source.length + 1 := by
  show ("!" ++ e.source).length = _
  rw [String.length_append, Nat.add_comm]
  rfl

/-- Around joined trees, there are two parentheses, and a sign between them. -/
theorem length_source_build (op : Operator) (l r : Expr) :
    (op.build l r).source.length = l.source.length + r.source.length + 4 := by
  have hsource : (op.build l r).source =
      "(" ++ l.source ++ op.symbol ++ r.source ++ ")" := by
    cases op <;> rfl
  have hsign : op.symbol.length = 2 := by cases op <;> rfl
  have hopen : "(".length = 1 := rfl
  have hclose : ")".length = 1 := rfl
  simp only [hsource, String.length_append, hsign, hopen, hclose]
  omega

end Expr

/-! ## The accounts -/

/-- What the characters of a text are spent on, if `e` is its tree.  A sign
    between operands has two characters, a pair of parentheses has one `(`, and
    only the word `false` has an `f`. -/
structure Account (s : List Char) (e : Expr) : Prop where
  nodes : s.length =
    e.nodes.length + 3 + s.count 'f' + 2 * s.count '(' + 2 * (s.count '&' + s.count '|')
  source : 4 * s.length =
    3 * e.source.length + 4 + s.count '!' + s.count 'f' + 8 * s.count '('

namespace Account

variable {s t : List Char} {e l r : Expr}

/-- A sign of negation is a character of the source as well. -/
theorem negated (h : Account s e) : Account ("!".toList ++ s) (.not e) := by
  have hlen : ("!".toList ++ s).length = s.length + 1 := rfl
  have hbang : ("!".toList ++ s).count '!' = s.count '!' + 1 := by simp
  have hcount : ∀ c, '!' ≠ c → ("!".toList ++ s).count c = s.count c :=
    fun c hc => List.count_cons_of_ne hc
  have hf := hcount 'f' (by decide)
  have hopen := hcount '(' (by decide)
  have hand := hcount '&' (by decide)
  have hor := hcount '|' (by decide)
  have hnodes : (Expr.not e).nodes.length = e.nodes.length + 1 := rfl
  have hsource := e.length_source_not
  obtain ⟨hn, hs⟩ := h
  constructor <;> omega

/-- A pair of parentheses leaves no trace. -/
theorem grouped (h : Account s e) : Account ("(".toList ++ s ++ ")".toList) e := by
  have hlen : ("(".toList ++ s ++ ")".toList).length = s.length + 2 := by simp
  have hopen : ("(".toList ++ s ++ ")".toList).count '(' = s.count '(' + 1 := by simp
  have hcount : ∀ c, '(' ≠ c → ')' ≠ c →
      ("(".toList ++ s ++ ")".toList).count c = s.count c := by
    intro c hc hc'
    simp [List.count_cons_of_ne, hc, hc']
  have hbang := hcount '!' (by decide) (by decide)
  have hf := hcount 'f' (by decide) (by decide)
  have hand := hcount '&' (by decide) (by decide)
  have hor := hcount '|' (by decide) (by decide)
  obtain ⟨hn, hs⟩ := h
  constructor <;> omega

/-- A sign between operands stands for a node, and for four characters of the
    source. -/
theorem joined (op : Operator) (hl : Account s l) (hr : Account t r) :
    Account (s ++ op.symbol.toList ++ t) (op.build l r) := by
  have hlen : (s ++ op.symbol.toList ++ t).length = s.length + t.length + 2 := by
    cases op <;> simp [Operator.symbol] <;> omega
  have hsigns : (s ++ op.symbol.toList ++ t).count '&' + (s ++ op.symbol.toList ++ t).count '|' =
      (s.count '&' + s.count '|') + (t.count '&' + t.count '|') + 2 := by
    cases op <;> simp [Operator.symbol] <;> omega
  have hcount : ∀ c, '&' ≠ c → '|' ≠ c →
      (s ++ op.symbol.toList ++ t).count c = s.count c + t.count c := by
    intro c hc hc'
    cases op <;> simp [Operator.symbol, List.count_cons_of_ne, hc, hc']
  have hbang := hcount '!' (by decide) (by decide)
  have hf := hcount 'f' (by decide) (by decide)
  have hopen := hcount '(' (by decide) (by decide)
  have hnodes := Expr.length_nodes_build op l r
  have hsource := Expr.length_source_build op l r
  obtain ⟨hnl, hsl⟩ := hl
  obtain ⟨hnr, hsr⟩ := hr
  constructor <;> omega

end Account

/-- Every text of a tree has this account. -/
theorem Derives.account {level : Level} {s : List Char} {e : Expr} (h : Derives level s e) :
    Account s e := by
  induction h with
  | trueWord => exact ⟨rfl, rfl⟩
  | falseWord => exact ⟨rfl, rfl⟩
  | negation _ ih => exact ih.negated
  | group _ ih => exact ih.grouped
  | ofFactor _ ih => exact ih
  | and _ _ ihl ihr => exact ihl.joined .and ihr
  | ofTerm _ ih => exact ih
  | or _ _ ihl ihr => exact ihl.joined .or ihr

/-- OUTPUT IS LINEAR IN INPUT: the tree of a text that is read, by whichever
    engine and exact reader of tokens, is no higher than it has nodes; it has at
    least three nodes fewer than the text has characters; and its source text is
    at most about a third longer than the text.  The bound on the nodes is met
    by the word `true` behind signs of negation, the one on the source by chains
    of this word, and by no other texts. -/
theorem output_linear (engine : Engine) (tokenReader : Reader) (hexact : tokenReader.Exact)
    (text : String) (e : Expr) (h : engine.read text tokenReader = .ok e) :
    e.measure.depth ≤ e.measure.nodes ∧
    e.measure.nodes + 3 ≤ text.length ∧
    3 * e.source.length + 4 ≤ 4 * text.length ∧
    (e.measure.nodes + 3 = text.length ↔
      'f' ∉ text.toList ∧ '(' ∉ text.toList ∧ '&' ∉ text.toList ∧ '|' ∉ text.toList) ∧
    (3 * e.source.length + 4 = 4 * text.length ↔
      '!' ∉ text.toList ∧ 'f' ∉ text.toList ∧ '(' ∉ text.toList) := by
  obtain ⟨hnodes, hsource⟩ := ((engine.read_ok_iff hexact).mp h).account
  rw [String.length_toList] at hnodes hsource
  have hheight := e.height_le_nodes
  simp only [← List.count_eq_zero]
  rw [e.depth_measure, e.nodes_measure]
  refine ⟨hheight, ?_, ?_, ?_, ?_⟩ <;> omega

/-- One word meets the one bound, two of them meet the other, and parentheses
    and negations leave both far behind. -/
theorem output_linear_met :
    (∃ e, Engine.descent.read "!!true" = .ok e ∧ e.measure.nodes + 3 = "!!true".length) ∧
    (∃ e, Engine.tokens.read "true&&true" = .ok e ∧
      3 * e.source.length + 4 = 4 * "true&&true".length) ∧
    ∃ e, Engine.descent.read "((!(false))||true)" = .ok e ∧ e.measure.nodes = 4 ∧
      e.measure.nodes + 3 ≤ 18 ∧ e.source.length = 14 ∧ 3 * e.source.length + 4 ≤ 4 * 18 := by
  have hword : Engine.descent.read "!!true" = .ok (.not (.not (.literal true))) := rfl
  have hchain : Engine.tokens.read "true&&true" = .ok (.and (.literal true) (.literal true)) := rfl
  have hgroups : Engine.descent.read "((!(false))||true)" =
      .ok (.or (.not (.literal false)) (.literal true)) := rfl
  obtain ⟨-, -, -, hmet, -⟩ := output_linear _ _ Machine.exact _ _ hword
  obtain ⟨-, -, -, -, hmet₁⟩ := output_linear _ _ Machine.exact _ _ hchain
  obtain ⟨-, hnodes, hsource, -⟩ := output_linear _ _ Machine.exact _ _ hgroups
  exact ⟨⟨_, hword, hmet.mpr (by decide)⟩, ⟨_, hchain, hmet₁.mpr (by decide)⟩,
    _, hgroups, rfl, hnodes, rfl, hsource⟩

end TruthExpr
