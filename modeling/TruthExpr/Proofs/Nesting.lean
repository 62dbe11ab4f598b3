import TruthExpr.Proofs.Acceptance
import TruthExpr.Proofs.FailureShape

/-! # Nesting — the allowance covers all but grossly unclosed texts

    The allowance of a text grows by less than a parenthesis costs.  It still
    suffices, since every parenthesis that is closed adds to it twice.  The
    route:

    * `Visits` says which rules a descent tries, where, and what is open
      there; operands that are tried and dropped again are among them;
    * `aborted_iff_overspends`: a descent is given up for its depth exactly
      when what is open at some point of it costs more than the allowance;
    * `Visits.opened`: what is open has been opened by signs of the text, each
      of them once, so the signs of the whole text bound the cost at every
      point;
    * `allowance_suffices`: with as many closing parentheses as it takes, the
      allowance covers this bound. -/

namespace TruthExpr

namespace Grammar

open TruthExpr.Parser

variable {op : Operator} {p q : Parser Expr} {a cost : Nat} {level : Level} {c c₁ c₂ : Cursor}

/-! ## Which rules are tried -/

/-- Where a chain from `c` looks for an operand: where it begins, and behind
    each operator that follows an operand. -/
inductive OperandAt (op : Operator) (p : Parser Expr) (c : Cursor) : Cursor → Prop where
  | first : OperandAt op p c c
  | next {c₁ c₂ : Cursor} {x : Expr} :
      OperandAt op p c c₁ → p c₁ = .parsed x c₂ → c₂.startsWith op.symbol = true →
      OperandAt op p c (c₂.advance op.symbol.length)

/-- `Visits top c level c₁ groups negations`: a descent that begins at `c` with
    the rule `top` tries the rule `level` at `c₁`, where so many parentheses
    and signs of negation are open. -/
inductive Visits (top : Level) (c : Cursor) : Level → Cursor → Nat → Nat → Prop where
  | start : Visits top c top c 0 0
  | operand (op : Operator) {c₁ c₂ : Cursor} {groups negations : Nat} :
      Visits top c op.level c₁ groups negations →
      OperandAt op (unlimited (ruleAt op.operandLevel)) c₁ c₂ →
      Visits top c op.operandLevel c₂ groups negations
  | negation {c₁ : Cursor} {groups negations : Nat} :
      Visits top c .factor c₁ groups negations → c₁.startsWith "!" = true →
      Visits top c .factor (c₁.advance 1) groups (negations + 1)
  | group {c₁ : Cursor} {groups negations : Nat} :
      Visits top c .factor c₁ groups negations → c₁.startsWith "(" = true →
      Visits top c .expr (c₁.advance 1) (groups + 1) negations

/-- What is open at some point takes this out of the allowance. -/
def openCost (groups negations : Nat) : Nat := groupCost * groups + negationCost * negations

/-- A descent from a point of a descent is part of it. -/
theorem Visits.trans {top level₁ : Level} {g n g₁ n₁ : Nat} (h : Visits top c level c₁ g n)
    (h₁ : Visits level c₁ level₁ c₂ g₁ n₁) : Visits top c level₁ c₂ (g + g₁) (n + n₁) := by
  induction h₁ with
  | start => exact h
  | operand op _ hat ih => exact .operand op ih hat
  | negation _ hs ih => exact .negation ih hs
  | group _ hs ih =>
      rw [← Nat.add_assoc]
      exact .group ih hs

/-! ## Where a descent is given up -/

/-- What is given up for want of `cost` is given up before or behind the
    payment. -/
theorem paying_aborted_iff {rule : Nat → Parser Expr} :
    paying cost rule a c = .aborted .nestedTooDeeply ↔
      a < cost ∨ cost ≤ a ∧ rule (a - cost) c = .aborted .nestedTooDeeply := by
  rw [paying]
  by_cases h : cost ≤ a
  · rw [if_pos h]
    constructor
    · exact fun hab => Or.inr ⟨h, hab⟩
    · rintro (hlt | ⟨-, hab⟩)
      · omega
      · exact hab
  · rw [if_neg h]
    exact ⟨fun _ => Or.inl (by omega), fun _ => rfl⟩

/-- Two payments in a row are one. -/
theorem paying_add (cost more : Nat) (rule : Nat → Parser Expr) (a : Nat) :
    paying (cost + more) rule a = paying cost (paying more rule) a := by
  have hrest : a - (cost + more) = a - cost - more := by omega
  rw [paying, paying]
  by_cases h : cost ≤ a
  · rw [if_pos h, paying, hrest]
    by_cases h₁ : cost + more ≤ a
    · rw [if_pos h₁, if_pos (by omega)]
    · rw [if_neg h₁, if_neg (by omega)]
  · rw [if_neg h, if_neg (by omega)]

/-- A payment is all that two rules can be given up for, besides themselves. -/
theorem paying_aborts {r r₁ : Nat → Parser Expr}
    (h : ∀ b, r b c = .aborted .nestedTooDeeply → r₁ b c₁ = .aborted .nestedTooDeeply)
    (hab : paying cost r a c = .aborted .nestedTooDeeply) :
    paying cost r₁ a c₁ = .aborted .nestedTooDeeply :=
  paying_aborted_iff.mpr ((paying_aborted_iff.mp hab).imp_right (And.imp_right (h _)))

/-- A factor is given up for what its sign of negation or its parenthesis
    opens. -/
theorem factor_aborted_iff :
    factor a c = .aborted .nestedTooDeeply ↔
      c.startsWith "!" = true ∧
          paying negationCost factor a (c.advance 1) = .aborted .nestedTooDeeply ∨
        c.startsWith "(" = true ∧
          paying groupCost expr a (c.advance 1) = .aborted .nestedTooDeeply := by
  rw [factor_eq]
  constructor
  · intro hab
    obtain ⟨p, hmem, hp⟩ := of_tryAll_aborted (of_mapFailure_aborted hab)
    simp only [List.mem_cons, List.not_mem_nil, or_false] at hmem
    rcases hmem with rfl | rfl | rfl
    · cases hs : c.startsWith "!" with
      | true =>
          rw [negation, negationOf_of_bang hs] at hp
          exact Or.inl ⟨rfl, of_mapFailure_aborted (of_map_aborted hp)⟩
      | false =>
          rw [negation, negationOf_of_not_bang hs] at hp
          cases hp
    · cases hs : c.startsWith "(" with
      | true =>
          rw [group, groupOf_of_opening hs] at hp
          refine Or.inr ⟨rfl, ?_⟩
          -- the closing parenthesis costs nothing
          rcases of_bind_aborted hp with hin | ⟨x, c₁, -, hclose⟩
          · exact hin
          · rcases of_bind_aborted hclose with hlit | ⟨_, _, -, hdone⟩
            · exact absurd hlit (literal_ne_aborted _ _)
            · exact absurd hdone (Outcome.parsed_ne_aborted _ _ _)
      | false =>
          rw [group, groupOf_of_not_opening hs] at hp
          cases hp
    · exact absurd hp (answers_constant c (Nat.le_refl _))
  · rintro (⟨hs, hab⟩ | ⟨hs, hab⟩)
    · rw [factorOf, Parser.rule, choice, tryAll, negation, negationOf_of_bang hs, hab]
      rfl
    · have hbang : c.startsWith "!" = false := Cursor.startsWith_eq_false hs rfl rfl (by decide)
      have hgroup : group a c = .aborted .nestedTooDeeply := by
        rw [group, groupOf_of_opening hs, followedBy, bind_of_aborted hab]
      rw [factorOf, Parser.rule, choice, tryAll, negation, negationOf_of_not_bang hbang]
      simp only [tryAll, hgroup]
      rfl

/-- Where an operand is looked for, the chain is given up with it, and goes on
    behind it, unless it has been given up before. -/
theorem OperandAt.resumes (hat : OperandAt op q c c₁) (ho : p.Orderly) (h : Approximates p q) :
    (p c₁ = .aborted .nestedTooDeeply → chain op p c = .aborted .nestedTooDeeply) ∧
      ∀ x c₂, p c₁ = .parsed x c₂ →
        chain op p c = .aborted .nestedTooDeeply ∨ ∃ y, chain op p c = goOn op p y c₂ := by
  induction hat with
  | first =>
      refine ⟨fun hp => bind_of_aborted hp _, ?_⟩
      intro x c₂ hp
      exact Or.inr ⟨x, bind_of_parsed hp _⟩
  | @next c₁ c₂ x _ hq hs ih =>
      have hchain : chain op p c = .aborted .nestedTooDeeply ∨
          ∃ y, chain op p c = goOn op p y c₂ := by
        rcases h c₁ with hp | heq
        · exact Or.inl (ih.1 hp)
        · exact ih.2 x c₂ (heq.symm.trans hq)
      rcases hchain with hab | ⟨y, hrun⟩
      · exact ⟨fun _ => hab, fun _ _ _ => Or.inl hab⟩
      · rw [hrun]
        refine ⟨fun hp => goOn_of_aborted op ho hs hp y, ?_⟩
        intro z c₃ hp
        exact Or.inr ⟨op.build y z, goOn_of_parsed op ho hs hp y⟩

/-- A chain is given up for one of the operands it looks for. -/
theorem chain_aborted_iff (ho : p.Orderly) (h : Approximates p q) :
    chain op p c = .aborted .nestedTooDeeply ↔
      ∃ c₁, OperandAt op q c c₁ ∧ p c₁ = .aborted .nestedTooDeeply := by
  constructor
  · intro hab
    rcases of_bind_aborted hab with hp | ⟨x, c₁, hp, hrun⟩
    · exact ⟨c, .first, hp⟩
    · -- wherever the loop stands, an operand has just been read
      refine goOn_induction op ho (motive := fun _ c₂ o =>
        (∃ c₁ x, OperandAt op q c c₁ ∧ q c₁ = .parsed x c₂) → o = .aborted .nestedTooDeeply →
        ∃ c₁, OperandAt op q c c₁ ∧ p c₁ = .aborted .nestedTooDeeply) ?_ ?_ ?_ x c₁
        ⟨c, x, .first, h.parsed hp⟩ hrun
      · intro x c₂ _ hstop
        exact absurd hstop (Outcome.parsed_ne_aborted _ _ _)
      · rintro x c₂ fault hs hp ⟨c₁, y, hat, hq⟩ heq
        cases heq
        exact ⟨_, .next hat hq hs, hp⟩
      · rintro x c₂ y c₃ o hs hy ih ⟨c₁, z, hat, hq⟩ heq
        exact ih ⟨_, y, .next hat hq hs, h.parsed hy⟩ heq
  · rintro ⟨c₁, hat, hp⟩
    exact (hat.resumes ho h).1 hp

theorem orderly_ruleAt (level : Level) (a : Nat) : (ruleAt level a).Orderly := by
  cases level with
  | factor => exact orderly_factor a
  | term => exact orderly_term a
  | expr => exact orderly_expr a

/-- The rule of a chain is given up for one of the operands it looks for. -/
theorem ruleAt_aborted_iff (op : Operator) :
    ruleAt op.level a c = .aborted .nestedTooDeeply ↔
      ∃ c₁, OperandAt op (unlimited (ruleAt op.operandLevel)) c c₁ ∧
        ruleAt op.operandLevel a c₁ = .aborted .nestedTooDeeply := by
  rw [← chain_aborted_iff (orderly_ruleAt op.operandLevel a) (approximates_unlimited _ a)]
  obtain ⟨name, hname⟩ : ∃ name, ruleAt op.level a =
      Parser.rule name (chain op (ruleAt op.operandLevel a)) := by
    cases op with
    | and => exact ⟨"term", termOf_eq (factor a)⟩
    | or => exact ⟨"expr", exprOf_eq (term a)⟩
  rw [hname]
  constructor
  · exact of_mapFailure_aborted
  · intro hab
    show (chain op (ruleAt op.operandLevel a) c).mapFailure _ = _
    rw [hab]
    rfl

theorem openCost_negation (g n : Nat) : openCost g (n + 1) = openCost g n + negationCost := by
  simp only [openCost, Nat.mul_add, Nat.mul_one, Nat.add_assoc]

theorem openCost_group (g n : Nat) : openCost (g + 1) n = openCost g n + groupCost := by
  simp only [openCost, Nat.mul_add, Nat.mul_one, Nat.add_right_comm]

/-- A descent is given up if what is open at some point of it cannot be paid
    for, or if the rule there is given up with what is left. -/
theorem Visits.aborts {top : Level} {g n : Nat} (h : Visits top c level c₁ g n) :
    paying (openCost g n) (ruleAt level) a c₁ = .aborted .nestedTooDeeply →
      ruleAt top a c = .aborted .nestedTooDeeply := by
  induction h with
  | start => exact id
  | operand op _ hat ih =>
      intro hab
      exact ih (paying_aborts (fun b hb => (ruleAt_aborted_iff op).mpr ⟨_, hat, hb⟩) hab)
  | negation _ hs ih =>
      intro hab
      rw [openCost_negation, paying_add] at hab
      exact ih (paying_aborts (fun b hb => factor_aborted_iff.mpr (Or.inl ⟨hs, hb⟩)) hab)
  | group _ hs ih =>
      intro hab
      rw [openCost_group, paying_add] at hab
      exact ih (paying_aborts (fun b hb => factor_aborted_iff.mpr (Or.inr ⟨hs, hb⟩)) hab)

/-- At some point of a descent, what is open costs more than `a`. -/
def Overspends (a : Nat) (top : Level) (c : Cursor) : Prop :=
  ∃ level c₁ groups negations,
    Visits top c level c₁ groups negations ∧ a < openCost groups negations

/-- What overspends the rest at a point of a descent overspends the whole. -/
theorem Visits.overspends {top : Level} {g n : Nat} (h : Visits top c level c₁ g n)
    (hrest : Overspends (a - openCost g n) level c₁) : Overspends a top c := by
  obtain ⟨l, c₂, g₁, n₁, h₁, hlt⟩ := hrest
  refine ⟨l, c₂, g + g₁, n + n₁, h.trans h₁, ?_⟩
  simp only [openCost, Nat.mul_add] at *
  omega

/-- A rule that is given up has come to a point where too much is open. -/
theorem overspends_of_aborted (level : Level) :
    ∀ (a : Nat) (c : Cursor), ruleAt level a c = .aborted .nestedTooDeeply →
      Overspends a level c := by
  intro a
  induction a using Nat.strongRecOn generalizing level with
  | ind a ih =>
      -- what is opened next is too much by itself, or leaves less to go on with
      have hnext : ∀ {c c₁ level g n}, Visits .factor c level c₁ g n → 0 < openCost g n →
          paying (openCost g n) (ruleAt level) a c₁ = .aborted .nestedTooDeeply →
          Overspends a .factor c := by
        intro c c₁ level g n h hpos hab
        rcases paying_aborted_iff.mp hab with hlt | ⟨hle, hab⟩
        · exact ⟨level, c₁, g, n, h, hlt⟩
        · exact h.overspends (ih _ (Nat.sub_lt_of_pos_le hpos hle) level c₁ hab)
      have hfactor : ∀ c, factor a c = .aborted .nestedTooDeeply → Overspends a .factor c := by
        intro c hab
        rcases factor_aborted_iff.mp hab with ⟨hs, hab⟩ | ⟨hs, hab⟩
        · exact hnext (.negation .start hs) (by decide) hab
        · exact hnext (.group .start hs) (by decide) hab
      -- nothing is paid for between a chain and its operands
      have hchain : ∀ op : Operator, (∀ c, ruleAt op.operandLevel a c = .aborted .nestedTooDeeply →
          Overspends a op.operandLevel c) → ∀ c, ruleAt op.level a c = .aborted .nestedTooDeeply →
          Overspends a op.level c := by
        intro op hoperand c hab
        obtain ⟨c₁, hat, hab⟩ := (ruleAt_aborted_iff op).mp hab
        exact (Visits.operand op .start hat).overspends (hoperand c₁ hab)
      cases level with
      | factor => exact hfactor
      | term => exact hchain .and hfactor
      | expr => exact hchain .or (hchain .and hfactor)

/-- A rule is given up for its depth exactly if at some point of its descent
    what is open costs more than the allowance. -/
theorem aborted_iff_overspends (level : Level) (a : Nat) (c : Cursor) :
    ruleAt level a c = .aborted .nestedTooDeeply ↔ Overspends a level c := by
  constructor
  · exact overspends_of_aborted level a c
  · rintro ⟨l, c₁, g, n, h, hlt⟩
    exact h.aborts (paying_aborted_iff.mpr (Or.inl hlt))

/-! ## What can be open -/

theorem reads_ruleAt (level : Level) (a : Nat) : Reads level (ruleAt level a) := by
  obtain ⟨hfactor, hterm, hexpr⟩ := reads_rules a
  cases level with
  | factor => exact hfactor
  | term => exact hterm
  | expr => exact hexpr

/-- An operand is looked for behind some part of the text. -/
theorem OperandAt.spans (h : OperandAt op (unlimited (ruleAt level)) c c₁) (hc : c.Inside) :
    ∃ s, c.Spans s c₁ := by
  induction h with
  | first => exact ⟨[], hc.spans_nil⟩
  | @next c₁ c₂ x _ hx hs ih =>
      obtain ⟨s, hspan⟩ := ih
      obtain ⟨t, ht, -⟩ := reads_ruleAt level _ hspan.inside_next hx
      have hsign := (Cursor.startsWith_iff_spans ht.inside_next op.symbol).mp hs
      exact ⟨_, (hspan.trans ht).trans hsign⟩

/-- What is open at a point of a descent has been opened by signs before it. -/
theorem Visits.opened {top : Level} {g n : Nat} (h : Visits top c level c₁ g n) (hc : c.Inside) :
    c₁.Inside ∧ g + c₁.left.count '(' ≤ c.left.count '(' ∧
      n + c₁.left.count '!' ≤ c.left.count '!' := by
  induction h with
  | start => exact ⟨hc, by omega, by omega⟩
  | @operand op c₁ c₂ g n _ hat ih =>
      obtain ⟨hin, hg, hn⟩ := ih
      obtain ⟨s, hs⟩ := hat.spans hin
      rw [hs.left, List.count_append] at hg hn
      exact ⟨hs.inside_next, by omega, by omega⟩
  | @negation c₁ g n _ hstarts ih =>
      obtain ⟨hin, hg, hn⟩ := ih
      have hs := (Cursor.startsWith_iff_spans hin "!").mp hstarts
      have hleft : c₁.left = '!' :: (c₁.advance 1).left := hs.left
      rw [hleft, List.count_cons_self] at hn
      rw [hleft, List.count_cons_of_ne (by decide)] at hg
      exact ⟨hs.inside_next, hg, by omega⟩
  | @group c₁ g n _ hstarts ih =>
      obtain ⟨hin, hg, hn⟩ := ih
      have hs := (Cursor.startsWith_iff_spans hin "(").mp hstarts
      have hleft : c₁.left = '(' :: (c₁.advance 1).left := hs.left
      rw [hleft, List.count_cons_self] at hg
      rw [hleft, List.count_cons_of_ne (by decide)] at hn
      exact ⟨hs.inside_next, by omega, hn⟩

/-- All parentheses of an unclosed row come to be open at once. -/
theorem visits_openings {r : List Char} :
    ∀ (n : Nat) {c : Cursor}, c.Inside → c.left = List.replicate n '(' ++ r →
      ∃ c₁, Visits .expr c .expr c₁ n 0 := by
  intro n
  induction n with
  | zero => intro c _ _; exact ⟨c, .start⟩
  | succ n ih =>
      intro c hc hleft
      obtain ⟨hspan, hrest⟩ := hc.spans (s := "(".toList) hleft
      have hfactor : Visits .expr c .factor c 0 0 :=
        .operand .and (.operand .or .start .first) .first
      have hgroup : Visits .expr c .expr (c.advance 1) 1 0 := .group hfactor hspan.startsWith
      obtain ⟨c₁, h⟩ := ih hspan.inside_next hrest
      rw [Nat.add_comm]
      exact ⟨c₁, hgroup.trans h⟩

end Grammar

/-- Three kinds of signs do not make more than the whole text. -/
theorem count_signs_le (s : List Char) : s.count '(' + s.count ')' + s.count '!' ≤ s.length := by
  induction s with
  | nil => exact Nat.le_refl _
  | cons x s ih =>
      simp only [List.count_cons, List.length_cons, beq_iff_eq]
      grind

/-- The parentheses of a derived text are closed. -/
theorem Derives.balanced {level : Level} {s : List Char} {e : Expr} (h : Derives level s e) :
    s.count '(' = s.count ')' := by
  induction h with
  | trueWord => decide
  | falseWord => decide
  | negation _ ih => simp [ih]
  | group _ ih => simp [ih]
  | ofFactor _ ih => exact ih
  | ofTerm _ ih => exact ih
  | and _ _ ihl ihr => simp [ihl, ihr]
  | or _ _ ihl ihr => simp [ihl, ihr]

namespace Reading

open Grammar

variable {text : String}

/-- The answer to a text is that it nests too deep. -/
def RefusedForDepth (text : String) : Prop :=
  ∃ f, parse text = .error f ∧ f.expected = ["a less deeply nested expression"]

/-- Nothing but a spent allowance is answered like this. -/
theorem refusedForDepth_iff : RefusedForDepth text ↔ OutOfDepth text := by
  constructor
  · rintro ⟨f, hf, hexp⟩
    rcases parse_error_cases hf with ⟨hrun, -⟩ | ⟨e, c, -, rfl⟩ | ⟨hdeep, -⟩
    · obtain ⟨g, hfactor, rfl⟩ := expr_failed hrun
      obtain ⟨-, missing, hthree, -⟩ :=
        (factor_fails hfactor).shape (Cursor.inside_ofString text)
      change g.expected = _ at hexp
      rw [hthree] at hexp
      exact absurd hexp (by simp)
    · exact absurd hexp (by simp [Failure.trailing])
    · exact hdeep
  · intro h
    refine ⟨ofFault .nestedTooDeeply, ?_, rfl⟩
    rw [parse, h]

/-- A text is answered like this exactly if what is open costs too much at some
    point of its descent. -/
theorem refusedForDepth_iff_visits :
    RefusedForDepth text ↔
      ∃ level c groups negations, Visits .expr (Cursor.ofString text) level c groups negations ∧
        1000 + 6 * text.length < 10 * groups + 4 * negations := by
  have hallowance : allowance text.length = 1000 + 6 * text.length := by
    rw [Nat.mul_comm 6]
    rfl
  rw [refusedForDepth_iff, OutOfDepth, ← hallowance]
  exact aborted_iff_overspends .expr _ _

/-- What is open in a text whose parentheses are for the most part closed never
    costs more than its allowance. -/
theorem open_le_allowance
    (h : 2 * text.toList.count '(' ≤ 3 * text.toList.count ')' + 400) {level : Level}
    {c : Cursor} {groups negations : Nat}
    (hv : Visits .expr (Cursor.ofString text) level c groups negations) :
    10 * groups + 4 * negations ≤ 1000 + 6 * text.length := by
  obtain ⟨-, hg, hn⟩ := hv.opened (Cursor.inside_ofString text)
  rw [Cursor.left_ofString] at hg hn
  have hsigns := count_signs_le text.toList
  rw [String.length_toList] at hsigns
  omega

/-- THE ALLOWANCE SUFFICES for every text, well-formed or not, that does not
    open far more parentheses than it closes: at no point of its descent does
    what is open cost more than the text allows, so it is never refused for
    its depth.  A refusal for depth means just that some point costs more, and
    then the text is no sentence. -/
theorem allowance_suffices (text : String) :
    (2 * text.toList.count '(' ≤ 3 * text.toList.count ')' + 400 →
      (∀ level c groups negations,
        Visits .expr (Cursor.ofString text) level c groups negations →
          10 * groups + 4 * negations ≤ 1000 + 6 * text.length) ∧
      ¬ RefusedForDepth text) ∧
    (RefusedForDepth text ↔
      ∃ level c groups negations, Visits .expr (Cursor.ofString text) level c groups negations ∧
        1000 + 6 * text.length < 10 * groups + 4 * negations) ∧
    (RefusedForDepth text → ¬ Sentence text.toList) := by
  have hnever : 2 * text.toList.count '(' ≤ 3 * text.toList.count ')' + 400 →
      ¬ RefusedForDepth text := by
    intro h hrefused
    obtain ⟨level, c, groups, negations, hv, hlt⟩ := refusedForDepth_iff_visits.mp hrefused
    have hle := open_le_allowance h hv
    omega
  refine ⟨fun h => ⟨fun _ _ _ _ => open_le_allowance h, hnever h⟩, refusedForDepth_iff_visits, ?_⟩
  rintro hrefused ⟨e, he⟩
  -- a sentence closes what it opens
  have hbalanced := he.balanced
  exact hnever (by omega) hrefused

/-- A few parentheses may be left open in a later operand, but not two hundred
    and fifty-one in a row. -/
theorem allowance_suffices_unclosed :
    ¬ RefusedForDepth "false||!(true&&!((" ∧
    RefusedForDepth (String.ofList (List.replicate 251 '(')) ∧
    ¬ Sentence (List.replicate 251 '(') := by
  have hdeep : RefusedForDepth (String.ofList (List.replicate 251 '(')) := by
    obtain ⟨c, hv⟩ := visits_openings 251 (r := [])
      (Cursor.inside_ofString (String.ofList (List.replicate 251 '(')))
      (by rw [Cursor.left_ofString, String.toList_ofList, List.append_nil])
    refine refusedForDepth_iff_visits.mpr ⟨.expr, c, 251, 0, hv, ?_⟩
    rw [String.length_ofList, List.length_replicate]
    decide
  have hno := (allowance_suffices _).2.2 hdeep
  rw [String.toList_ofList] at hno
  exact ⟨((allowance_suffices _).1 (by decide)).2, hdeep, hno⟩

end Reading

end TruthExpr
