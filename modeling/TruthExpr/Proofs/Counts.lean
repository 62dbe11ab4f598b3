import TruthExpr.Proofs.Conservation
import TruthExpr.Proofs.Drafts
import TruthExpr.Proofs.Height
import TruthExpr.Proofs.TreeCode

/-! # Counts — the measure of a tree, in the tree and in its renderings

    The walk that measures a tree comes to its nodes in an order of its own,
    and so do the walks that print it.  What they have in common is counted:

    * `nodes` lists the parts of a tree, one for each node; their signs and
      words are the yield in another order (`yield_perm`), so the measure
      counts the nodes of each sort;
    * the outline has one line for each node (`split_outline`);
    * the source text is spelled by tokens that are the yield with one pair of
      parentheses for each operator (`bare_tokens`, `count_parenthesis`), and
      searching it for a token finds just these (`occurrences_spell`). -/

namespace TruthExpr

/-! ## Nodes -/

namespace Expr

/-- The parts of a tree, one for each node, the root first. -/
def nodes : Expr → List Expr
  | .literal b => [.literal b]
  | .not e => .not e :: e.nodes
  | .and l r => .and l r :: (l.nodes ++ r.nodes)
  | .or l r => .or l r :: (l.nodes ++ r.nodes)

/-- The sign or the word of the root. -/
def rootToken : Expr → Token
  | .literal true => .trueWord
  | .literal false => .falseWord
  | .not _ => .bang
  | .and _ _ => .andSign
  | .or _ _ => .orSign

/-- Every node is counted once, by induction on the tree. -/
theorem nodes_addTo (e : Expr) :
    ∀ (depth : Nat) (m : Measure), (e.addTo depth m).nodes = m.nodes + e.nodes.length := by
  induction e with
  | literal b =>
      intro depth m
      cases b <;> rfl
  | not e ih =>
      intro depth m
      show (e.addTo (depth + 1) _).nodes = m.nodes + (e.nodes.length + 1)
      rw [ih]
      show m.nodes + 1 + e.nodes.length = _
      omega
  | and l r ihl ihr | or l r ihl ihr =>
      intro depth m
      show (l.addTo (depth + 1) (r.addTo (depth + 1) _)).nodes =
        m.nodes + ((l.nodes ++ r.nodes).length + 1)
      rw [ihl, ihr, List.length_append]
      show m.nodes + 1 + r.nodes.length + l.nodes.length = _
      omega

theorem nodes_measure (e : Expr) : e.measure.nodes = e.nodes.length := by
  rw [measure, nodes_addTo]
  exact Nat.zero_add _

/-- Joined trees have one node more than they had apart. -/
theorem length_nodes_build (op : Operator) (l r : Expr) :
    (op.build l r).nodes.length = l.nodes.length + r.nodes.length + 1 := by
  have hlen : (op.build l r).nodes.length = (l.nodes ++ r.nodes).length + 1 := by
    cases op <;> rfl
  rw [hlen, List.length_append]

/-- The yield has the signs and words of all nodes, in another order. -/
theorem yield_perm (e : Expr) : e.yield.Perm (e.nodes.map rootToken) := by
  induction e with
  | literal b => cases b <;> exact .refl _
  | not e ih => exact ih.cons .bang
  | and l r ihl ihr | or l r ihl ihr =>
      -- the sign stands between the operands here, and in front of them there
      refine List.perm_middle.trans (.cons _ ?_)
      rw [List.map_append]
      exact ihl.append ihr

/-- The token at a root says which type the root has. -/
theorem rootToken_eq_iff (n : Expr) :
    (n.rootToken = .bang ↔ n.typeName = "Not") ∧ (n.rootToken = .andSign ↔ n.typeName = "And") ∧
      (n.rootToken = .orSign ↔ n.typeName = "Or") := by
  rcases n with (_ | _) | _ | _ | _ <;> simp [rootToken, typeName]

/-- A sign occurs in the yield once for each node that it is the sign of. -/
theorem count_yield {t : Token} {name : String}
    (h : ∀ n : Expr, n.rootToken = t ↔ n.typeName = name) (e : Expr) :
    e.yield.count t = e.nodes.countP (·.typeName = name) := by
  rw [e.yield_perm.count_eq, List.count, List.countP_map]
  refine List.countP_congr fun n _ => ?_
  simp [h n]

/-- A word occurs in the yield if it is that of a leaf. -/
theorem word_mem_yield (b : Bool) (e : Expr) :
    (literal b).rootToken ∈ e.yield ↔ .literal b ∈ e.nodes := by
  have hword : ∀ n : Expr, n.rootToken = (literal b).rootToken ↔ n = .literal b := by
    intro n
    rcases n with (_ | _) | _ | _ | _ <;> cases b <;> simp [rootToken]
  rw [e.yield_perm.mem_iff, List.mem_map]
  simp [hword]

theorem adds_measure (e : Expr) : Measure.Adds e.yield {} e.measure := Measure.adds_addTo e 1 {}

/-- The signs of the measure are those of the yield. -/
theorem operators_measure (e : Expr) : e.measure.operators =
    [("!", e.yield.count .bang), ("&&", e.yield.count .andSign),
      ("||", e.yield.count .orSign)].filter (·.2 ≠ 0) := by
  have hadds := e.adds_measure
  rw [Measure.operators, hadds.negations, hadds.conjunctions, hadds.disjunctions]
  simp only [Nat.zero_add]

/-- The literals of the measure are the values of the leaves. -/
theorem literals_measure (e : Expr) :
    e.measure.literals = [false, true].filter fun b => .literal b ∈ e.nodes := by
  have htrue : e.measure.hasTrue = decide (.literal true ∈ e.nodes) := by
    rw [Bool.eq_iff_iff, e.adds_measure.hasTrue, decide_eq_true_iff, ← word_mem_yield]
    exact or_iff_right Bool.false_ne_true
  have hfalse : e.measure.hasFalse = decide (.literal false ∈ e.nodes) := by
    rw [Bool.eq_iff_iff, e.adds_measure.hasFalse, decide_eq_true_iff, ← word_mem_yield]
    exact or_iff_right Bool.false_ne_true
  rw [Measure.literals, htrue, hfalse]
  by_cases hf : literal false ∈ e.nodes <;> by_cases ht : literal true ∈ e.nodes <;>
    simp [hf, ht]

end Expr

/-! ## Signs of the measure -/

/-- How often a sign occurs; one that is not listed does not occur. -/
def Measure.timesOf (m : Measure) (sign : String) : Nat := (m.operators.lookup sign).getD 0

/-- In a row of numbers under names, a zero need not be listed. -/
theorem getD_lookup_filter {name : String} {row : List (String × Nat)} :
    (row.map Prod.fst).Nodup →
      ((row.filter (·.2 ≠ 0)).lookup name).getD 0 = (row.lookup name).getD 0 := by
  induction row with
  | nil => exact fun _ => rfl
  | cons entry row ih =>
      obtain ⟨key, n⟩ := entry
      intro h
      obtain ⟨hnew, hrest⟩ := List.nodup_cons.mp h
      rw [List.lookup_cons]
      by_cases hn : n = 0
      · subst hn
        rw [List.filter_cons_of_neg (by simp), ih hrest]
        by_cases hkey : name = key
        · -- the zero that is left out stood under the name
          subst hkey
          have hnone : row.lookup name = none := by
            refine List.lookup_eq_none_iff.mpr fun p hp => bne_iff_ne.mpr ?_
            rintro rfl
            exact hnew (List.mem_map.mpr ⟨p, hp, rfl⟩)
          rw [hnone, beq_self_eq_true]
          rfl
        · rw [beq_false_of_ne hkey]
      · rw [List.filter_cons_of_pos (by simp [hn]), List.lookup_cons]
        by_cases hkey : name = key
        · rw [hkey, beq_self_eq_true]
        · rw [beq_false_of_ne hkey]
          exact ih hrest

/-- The table of the summary lists the three signs with their counts. -/
theorem Expr.timesOf_eq (e : Expr) (sign : String) : e.measure.timesOf sign =
    ([("!", e.yield.count .bang), ("&&", e.yield.count .andSign),
      ("||", e.yield.count .orSign)].lookup sign).getD 0 := by
  rw [Measure.timesOf, e.operators_measure]
  exact getD_lookup_filter (by simp)

/-! ## Lines -/

section Lines

variable {indent : String}

/-- Every node has a line of its own. -/
theorem length_outlineLines (e : Expr) : ∀ pad label : String,
    (e.outlineLines indent pad label).length = e.nodes.length := by
  induction e with
  | literal b => exact fun _ _ => rfl
  | not e ih => exact fun _ _ => congrArg Nat.succ (ih _ _)
  | and l r ihl ihr | or l r ihl ihr =>
      intro pad label
      show (l.outlineLines indent _ "left: " ++ r.outlineLines indent _ "right: ").length + 1 =
        (l.nodes ++ r.nodes).length + 1
      rw [List.length_append, List.length_append, ihl, ihr]

/-- No line of an outline is broken within. -/
theorem newline_notMem_title (e : Expr) : '\n' ∉ e.title.toList := by
  rcases e with (_ | _) | _ | _ | _ <;> simp [Expr.title, Expr.word]

/-- If the indent has no line break, neither has any line. -/
theorem newline_notMem_line (h : '\n' ∉ indent.toList) (e : Expr) :
    ∀ pad label : String, '\n' ∉ pad.toList → '\n' ∉ label.toList →
      ∀ line ∈ e.outlineLines indent pad label, '\n' ∉ line.toList := by
  have hfirst : ∀ (e : Expr) {pad label : String}, '\n' ∉ pad.toList → '\n' ∉ label.toList →
      '\n' ∉ (pad ++ label ++ e.title).toList := by
    intro e pad label hpad hlabel
    simp [hpad, hlabel, newline_notMem_title]
  have hinside : ∀ {pad : String}, '\n' ∉ pad.toList → '\n' ∉ (pad ++ indent).toList := by
    intro pad hpad
    simp [hpad, h]
  induction e with
  | literal b =>
      intro pad label hpad hlabel
      exact List.forall_mem_singleton.mpr (hfirst _ hpad hlabel)
  | not e ih =>
      intro pad label hpad hlabel
      refine List.forall_mem_cons.mpr ⟨hfirst _ hpad hlabel, ih _ _ (hinside hpad) (by decide)⟩
  | and l r ihl ihr | or l r ihl ihr =>
      intro pad label hpad hlabel
      refine List.forall_mem_cons.mpr ⟨hfirst _ hpad hlabel, List.forall_mem_append.mpr ⟨?_, ?_⟩⟩
      · exact ihl _ _ (hinside hpad) (by decide)
      · exact ihr _ _ (hinside hpad) (by decide)

/-- An outline falls into the lines it has been made of. -/
theorem split_outline (h : '\n' ∉ indent.toList) (e : Expr) :
    ((e.outline indent).split '\n').toList.map (·.copy) = e.outlineLines indent "" "" := by
  have hsplit := String.toList_split_intercalate
    (newline_notMem_line h e "" "" (by decide) (by decide))
  rw [if_neg (outlineLines_ne_nil _ _ _ _)] at hsplit
  exact hsplit

theorem length_split_outline (h : '\n' ∉ indent.toList) (e : Expr) :
    ((e.outline indent).split '\n').toList.length = e.nodes.length := by
  rw [← List.length_map (·.copy), split_outline h, length_outlineLines]

end Lines

/-! ## Tokens of the source text -/

/-- How often a word is found in a text that is searched from the left, going
    on behind each place where it is found. -/
def occurrences (word : List Char) : List Char → Nat
  | [] => 0
  | c :: s =>
      -- `c` begins the word, so one character less of `s` belongs to it
      if word <+: c :: s then occurrences word (s.drop (word.length - 1)) + 1
      else occurrences word s
termination_by s => s.length
decreasing_by
  · rw [List.length_drop, List.length_cons]
    omega
  · exact Nat.lt_succ_self _

section Occurrences

variable {c : Char} {word : List Char}

/-- Behind a place where the word stands, the search goes on. -/
theorem occurrences_append_self (s : List Char) :
    occurrences (c :: word) (c :: word ++ s) = occurrences (c :: word) s + 1 := by
  have hstands : c :: word <+: c :: (word ++ s) := List.prefix_append (c :: word) s
  rw [List.cons_append, occurrences, if_pos hstands, List.length_cons, Nat.add_sub_cancel,
    List.drop_left]

/-- Nothing is found where the first character does not occur. -/
theorem occurrences_append_of_notMem {s₁ : List Char} (h : c ∉ s₁) (s : List Char) :
    occurrences (c :: word) (s₁ ++ s) = occurrences (c :: word) s := by
  induction s₁ with
  | nil => rfl
  | cons x s₁ ih =>
      obtain ⟨hx, hrest⟩ := List.ne_and_not_mem_of_not_mem_cons h
      have hno : ¬ c :: word <+: x :: (s₁ ++ s) := fun hp => hx (List.cons_prefix_cons.mp hp).1
      rw [List.cons_append, occurrences, if_neg hno, ih hrest]

end Occurrences

/-- The first character of a token is in no other token. -/
theorem Token.exists_first (t : Token) : ∃ c word, t.text.toList = c :: word ∧
    ∀ u : Token, u ≠ t → c ∉ u.text.toList := by
  cases t
  all_goals
    refine ⟨_, _, rfl, fun u hu => ?_⟩
    revert hu
    cases u <;> decide

/-- In what tokens spell, each token is found as often as it is one of them. -/
theorem occurrences_spell (t : Token) (ts : List Token) :
    occurrences t.text.toList (spell ts) = ts.count t := by
  obtain ⟨c, word, htext, hother⟩ := t.exists_first
  rw [htext]
  induction ts with
  | nil => rw [spell_nil, occurrences, List.count_nil]
  | cons u us ih =>
      by_cases hu : u = t
      · subst hu
        rw [spell_cons, htext, occurrences_append_self, ih, List.count_cons_self]
      · rw [spell_cons, occurrences_append_of_notMem (hother u hu), ih, List.count_cons_of_ne hu]

namespace Expr

/-- The tokens of the source text of a tree. -/
def tokens : Expr → List Token
  | .literal b => [(literal b).rootToken]
  | .not e => .bang :: e.tokens
  | .and l r => [.opening] ++ l.tokens ++ .andSign :: r.tokens ++ [.closing]
  | .or l r => [.opening] ++ l.tokens ++ .orSign :: r.tokens ++ [.closing]

theorem toList_source (e : Expr) : e.source.toList = spell e.tokens := by
  induction e with
  | literal b => cases b <;> decide
  | not e ih =>
      rw [source, tokens, String.toList_append, ih, spell_cons]
      rfl
  | and l r ihl ihr | or l r ihl ihr =>
      simp only [source, tokens, String.toList_append, ihl, ihr, spell_append, spell_cons,
        spell_nil, List.append_assoc, List.append_nil]
      rfl

/-- Without its parentheses, the source text has the yield of the tree. -/
theorem bare_tokens (e : Expr) : bare e.tokens = e.yield := by
  have hopening : bare [.opening] = [] := rfl
  have hclosing : bare [.closing] = [] := rfl
  induction e with
  | literal b => cases b <;> rfl
  | not e ih => rw [tokens, bare_cons rfl, ih, yield]
  | and l r ihl ihr | or l r ihl ihr =>
      rw [tokens, bare_append, bare_append, bare_append, hopening, hclosing, bare_cons rfl, ihl,
        ihr, List.nil_append, List.append_nil, yield]

/-- Each operator has a pair of parentheses. -/
theorem count_parenthesis {t : Token} (h : t = .opening ∨ t = .closing) (e : Expr) :
    e.tokens.count t = e.yield.count .andSign + e.yield.count .orSign := by
  induction e with
  | literal b => rcases h with rfl | rfl <;> cases b <;> rfl
  | not e ih => rcases h with rfl | rfl <;> simpa [tokens, yield] using ih
  | and l r ihl ihr | or l r ihl ihr =>
      rcases h with rfl | rfl <;> simp [tokens, yield, ihl, ihr] <;> omega

theorem occurrences_source (t : Token) (e : Expr) :
    occurrences t.text.toList e.source.toList = e.tokens.count t := by
  rw [toList_source, occurrences_spell]

end Expr

/-- COUNTS: the walk that measures a tree comes to every node once and as deep
    as the tree is high; it counts the nodes of each sort, lists no sign that
    does not occur, and finds the values of the leaves.  The other walks show
    the same numbers.  The outline has a line for each node, and the object
    nests as deep as the walk comes.  The source text has each sign as often as
    it is counted, and a pair of parentheses for each operator. -/
theorem counts_agree (e : Expr) :
    ∃ (m : Measure) (outline : String) (object : Json) (source : String),
      ((Draft.ofExpr e).measure = .ok m ∧
        (Draft.ofExpr e).outline Expr.usualIndent = .ok outline ∧
        (Draft.ofExpr e).toJson = .ok object ∧ (Draft.ofExpr e).source = .ok source) ∧
      m.nodes = e.nodes.length ∧ m.depth = e.height ∧
      m.operators = [("!", e.nodes.countP (·.typeName = "Not")),
        ("&&", e.nodes.countP (·.typeName = "And")),
        ("||", e.nodes.countP (·.typeName = "Or"))].filter (·.2 ≠ 0) ∧
      m.literals = ([false, true].filter fun b => .literal b ∈ e.nodes) ∧
      (outline.split '\n').toList.length = m.nodes ∧ object.objectDepth = m.depth ∧
      occurrences "!".toList source.toList = m.timesOf "!" ∧
      occurrences "&&".toList source.toList = m.timesOf "&&" ∧
      occurrences "||".toList source.toList = m.timesOf "||" ∧
      occurrences "(".toList source.toList = m.timesOf "&&" + m.timesOf "||" ∧
      occurrences ")".toList source.toList = m.timesOf "&&" + m.timesOf "||" := by
  obtain ⟨hobject, houtline, hmeasure, hsource⟩ := Draft.walks_ofExpr e Expr.usualIndent
  have hsign : ∀ t : Token, t.isParenthesis = false →
      occurrences t.text.toList e.source.toList = e.yield.count t := by
    intro t ht
    rw [e.occurrences_source, ← e.bare_tokens, count_bare ht]
  refine ⟨e.measure, e.outline Expr.usualIndent, e.toJson, e.source,
    ⟨hmeasure, houtline, hobject, hsource⟩, e.nodes_measure, e.depth_measure, ?_,
    e.literals_measure, ?_, ?_, ?_, ?_, ?_, ?_, ?_⟩
  · rw [e.operators_measure, e.count_yield fun n => n.rootToken_eq_iff.1,
      e.count_yield fun n => n.rootToken_eq_iff.2.1, e.count_yield fun n => n.rootToken_eq_iff.2.2]
  · rw [length_split_outline (by decide), e.nodes_measure]
  · rw [e.objectDepth_toJson, e.depth_measure]
  · rw [e.timesOf_eq]
    exact hsign .bang rfl
  · rw [e.timesOf_eq]
    exact hsign .andSign rfl
  · rw [e.timesOf_eq]
    exact hsign .orSign rfl
  · rw [e.timesOf_eq, e.timesOf_eq]
    exact (e.occurrences_source .opening).trans (e.count_parenthesis (.inl rfl))
  · rw [e.timesOf_eq, e.timesOf_eq]
    exact (e.occurrences_source .closing).trans (e.count_parenthesis (.inr rfl))

end TruthExpr
