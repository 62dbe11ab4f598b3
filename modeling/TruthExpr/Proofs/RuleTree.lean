import TruthExpr.Proofs.Derivation

/-! # Rule trees — what a parser made from the rules leaves of a text

    A parser that is made from the rules alone knows nothing of expressions.
    It leaves one node for each rule that joined anything: a chain of
    operands is one node with all of them, and a chain of one operand is that
    operand.  Expressions are built from such a tree afterwards, from the
    bottom up, and each chain from left to right.

    Building is the other half of the grammar: what is built from the rule
    trees of a text are the trees that the grammar derives
    (`derives_of_ruleTree`, `ruleTree_of_derives`).  So every parser that
    answers rule trees, however it works, ends in the same expressions. -/

namespace TruthExpr

/-- A tree of applied rules. -/
inductive RuleTree where
  | trueWord
  | falseWord
  | negate (operand : RuleTree)
  | chain (op : Operator) (first : RuleTree) (rest : List RuleTree)

namespace RuleTree

mutual

/-- The expression of a rule tree. -/
def build : RuleTree → Expr
  | .trueWord => .literal true
  | .falseWord => .literal false
  | .negate t => .not t.build
  | .chain op first rest => joinAll op first.build rest

/-- Joins operands one by one to what stands on their left. -/
def joinAll (op : Operator) (e : Expr) : List RuleTree → Expr
  | [] => e
  | t :: rest => joinAll op (op.build e t.build) rest

end

/-- The node of a chain; one operand alone has no node of its own. -/
def ofChain (op : Operator) (first : RuleTree) : List RuleTree → RuleTree
  | [] => first
  | t :: rest => .chain op first (t :: rest)

/-- The text of a chain, operand by operand. -/
def chainText (op : Operator) (s : List Char) (rest : List (List Char × RuleTree)) : List Char :=
  s ++ rest.flatMap fun part => op.symbol.toList ++ part.1

/-- `Of level s t`: the rule derives the text `s`, and `t` is a tree that its
    application leaves. -/
inductive Of : Level → List Char → RuleTree → Prop where
  | trueWord : Of .factor "true".toList .trueWord
  | falseWord : Of .factor "false".toList .falseWord
  | negate {s : List Char} {t : RuleTree} :
      Of .factor s t → Of .factor ("!".toList ++ s) (.negate t)
  | group {s : List Char} {t : RuleTree} :
      Of .expr s t → Of .factor ("(".toList ++ s ++ ")".toList) t
  | chain (op : Operator) {s : List Char} {t : RuleTree} {r : List (List Char × RuleTree)} :
      Of op.operandLevel s t → (∀ part ∈ r, Of op.operandLevel part.1 part.2) →
      Of op.level (chainText op s r) (ofChain op t (r.map Prod.snd))

/-- One operand is a chain, and adds no node. -/
theorem Of.single (op : Operator) {s : List Char} {t : RuleTree}
    (h : Of op.operandLevel s t) : Of op.level s t := by
  have hchain := Of.chain op (r := []) h (fun _ hp => nomatch hp)
  rw [chainText, List.flatMap_nil, List.append_nil] at hchain
  exact hchain

/-- What is relied on in an answer to a text: a tree that is answered is one
    of the text, and only a text without any is refused. -/
structure Answers {ε : Type} (answer : Except ε RuleTree) (s : List Char) : Prop where
  tree : ∀ t, answer = .ok t → Of .expr s t
  refusal : ∀ x, answer = .error x → ∀ t, ¬ Of .expr s t

/-- A chain of several parts builds what joining them does. -/
theorem build_ofChain (op : Operator) (first : RuleTree) (rest : List RuleTree) :
    (ofChain op first rest).build = joinAll op first.build rest := by
  cases rest with
  | nil => simp [ofChain, joinAll]
  | cons t rest => simp [ofChain, build]

/-- The last part is joined last, so it becomes the right operand. -/
theorem joinAll_concat (op : Operator) (t : RuleTree) :
    ∀ (ts : List RuleTree) (e : Expr),
      joinAll op e (ts ++ [t]) = op.build (joinAll op e ts) t.build := by
  intro ts
  induction ts with
  | nil => intro e; simp [joinAll]
  | cons u ts ih =>
      intro e
      rw [List.cons_append, joinAll, joinAll]
      exact ih _

theorem chainText_cons (op : Operator) (s : List Char) (part : List Char × RuleTree)
    (rest : List (List Char × RuleTree)) :
    chainText op s (part :: rest) = chainText op (s ++ op.symbol.toList ++ part.1) rest := by
  simp [chainText, List.append_assoc]

/-- Its text stands at the end. -/
theorem chainText_concat (op : Operator) (s : List Char) (rest : List (List Char × RuleTree))
    (part : List Char × RuleTree) :
    chainText op s (rest ++ [part]) = chainText op s rest ++ op.symbol.toList ++ part.1 := by
  simp [chainText, List.append_assoc]

/-- Operands joined one by one to a derived chain make a derived chain. -/
theorem derives_joinAll {op : Operator} :
    ∀ (rest : List (List Char × RuleTree)) {s : List Char} {e : Expr},
      Derives op.level s e → (∀ part ∈ rest, Derives op.operandLevel part.1 part.2.build) →
      Derives op.level (chainText op s rest) (joinAll op e (rest.map Prod.snd)) := by
  intro rest
  induction rest with
  | nil =>
      intro s e h _
      simpa [chainText, joinAll] using h
  | cons part rest ih =>
      intro s e h hrest
      rw [chainText_cons, List.map_cons, joinAll]
      exact ih (h.join (hrest part (List.mem_cons_self ..)))
        (fun p hp => hrest p (List.mem_cons_of_mem _ hp))

/-- What is built from a rule tree of a text is derived by the grammar. -/
theorem derives_of_ruleTree {level : Level} {s : List Char} {t : RuleTree} (h : Of level s t) :
    Derives level s t.build := by
  induction h with
  | trueWord => rw [build]; exact .trueWord
  | falseWord => rw [build]; exact .falseWord
  | negate _ ih => rw [build]; exact .negation ih
  | group _ ih => exact .group ih
  | chain op _ _ ih ihrest =>
      rw [build_ofChain]
      exact derives_joinAll _ ih.single ihrest

/-- A chain of an operator with its operands kept apart, so that one more of
    them can be added. -/
def IsRow (op : Operator) (s : List Char) (e : Expr) : Prop :=
  ∃ s₀ t rest, Of op.operandLevel s₀ t ∧ (∀ part ∈ rest, Of op.operandLevel part.1 part.2) ∧
    chainText op s₀ rest = s ∧ joinAll op t.build (rest.map Prod.snd) = e

/-- An operand alone is a row. -/
theorem IsRow.single (op : Operator) {s : List Char} {t : RuleTree}
    (h : Of op.operandLevel s t) : IsRow op s t.build := by
  refine ⟨s, t, [], h, (fun _ hp => nomatch hp), ?_, ?_⟩
  · simp [chainText]
  · simp [joinAll]

/-- A row with one more operand behind it is a row. -/
theorem IsRow.join (op : Operator) {s u : List Char} {e : Expr} {t : RuleTree}
    (h : IsRow op s e) (ht : Of op.operandLevel u t) :
    IsRow op (s ++ op.symbol.toList ++ u) (op.build e t.build) := by
  obtain ⟨s₀, t₀, rest, h₀, hrest, rfl, rfl⟩ := h
  refine ⟨s₀, t₀, rest ++ [(u, t)], h₀, ?_, chainText_concat op s₀ rest (u, t), ?_⟩
  · intro part hp
    rcases List.mem_append.mp hp with hp | hp
    · exact hrest part hp
    · obtain rfl := List.mem_singleton.mp hp
      exact ht
  · rw [List.map_append]
    exact joinAll_concat op t _ _

/-- A row of operands is a rule tree of its chain. -/
theorem IsRow.tree {op : Operator} {s : List Char} {e : Expr} (h : IsRow op s e) :
    ∃ t, Of op.level s t ∧ t.build = e := by
  obtain ⟨s₀, t, rest, h₀, hrest, rfl, rfl⟩ := h
  exact ⟨_, .chain op h₀ hrest, build_ofChain op t _⟩

/-- A text that the rule derives with the tree `e` has a rule tree that `e` is
    built from. -/
def HasTree (s : List Char) (e : Expr) : Level → Prop
  | .factor => ∃ t, Of .factor s t ∧ t.build = e
  | .term => IsRow .and s e
  | .expr => IsRow .or s e

/-- By induction on the derivation: every sentence has a rule tree for what it
    derives. -/
theorem hasTree_of_derives {level : Level} {s : List Char} {e : Expr}
    (h : Derives level s e) : HasTree s e level := by
  induction h with
  | trueWord => exact ⟨.trueWord, .trueWord, by rw [build]⟩
  | falseWord => exact ⟨.falseWord, .falseWord, by rw [build]⟩
  | negation _ ih =>
      obtain ⟨t, ht, rfl⟩ := ih
      exact ⟨.negate t, .negate ht, by rw [build]⟩
  | group _ ih =>
      obtain ⟨t, ht, rfl⟩ := IsRow.tree ih
      exact ⟨t, .group ht, rfl⟩
  | ofFactor _ ih =>
      obtain ⟨t, ht, rfl⟩ := ih
      exact IsRow.single .and ht
  | and _ _ ihl ihr =>
      obtain ⟨t, ht, rfl⟩ := ihr
      exact IsRow.join .and ihl ht
  | ofTerm _ ih =>
      obtain ⟨t, ht, rfl⟩ := IsRow.tree ih
      exact IsRow.single .or ht
  | or _ _ ihl ihr =>
      obtain ⟨t, ht, rfl⟩ := IsRow.tree ihr
      exact IsRow.join .or ihl ht

/-- A text that the grammar derives has a rule tree that its tree is built
    from. -/
theorem ruleTree_of_derives {s : List Char} {e : Expr} (h : Derives .expr s e) :
    ∃ t, Of .expr s t ∧ t.build = e :=
  (hasTree_of_derives h).tree

end RuleTree

end TruthExpr
