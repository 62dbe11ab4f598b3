import TruthExpr.Proofs.Chain
import TruthExpr.Proofs.Match
import TruthExpr.Reading

/-! # The descent — it reads what the grammar derives

    Two directions join the parsers of the grammar to its derivations:

    * `reads_expr` — what a rule matches is derived by it, with the tree the
      rule answers.  The allowance plays no part here.  The induction is
      `rule_induction`, on the allowance that is left;
    * `Derives.runs` — where a derived text stands, the rule matches it or, at
      the levels of the chains, comes to the loop that stands behind it.  The
      induction is on the derivation, and the allowance has to cover the text.

    The second direction says nothing about what follows the text, which is
    why chains end in a loop there: `expr_of_derives` adds that the loop stops
    where neither operator stands. -/

namespace TruthExpr

namespace Grammar

open TruthExpr.Parser

/-- What holds of a spent allowance and is kept by the rules holds of the
    rules with every allowance. -/
theorem rule_induction {motive : Level → Parser Expr → Prop}
    (spent : ∀ level, motive level spent)
    (factor : ∀ p q, motive .factor p → motive .expr q →
      motive .factor (factorOf (negationOf p) (groupOf q)))
    (term : ∀ p, motive .factor p → motive .term (termOf p))
    (expr : ∀ p, motive .term p → motive .expr (exprOf p)) :
    ∀ a, motive .factor (Grammar.factor a) ∧ motive .term (Grammar.term a) ∧
      motive .expr (Grammar.expr a) := by
  have hfactor : ∀ a, motive .factor (Grammar.factor a) := by
    intro a
    induction a using Nat.strongRecOn with
    | ind a ih =>
        rw [factor_eq]
        refine factor _ _ ?_ ?_
        · unfold paying
          split
          · next h => exact ih _ (Nat.sub_lt_of_pos_le (by decide) h)
          · exact spent .factor
        · unfold paying
          split
          · next h => exact expr _ (term _ (ih _ (Nat.sub_lt_of_pos_le (by decide) h)))
          · exact spent .expr
  intro a
  exact ⟨hfactor a, term _ (hfactor a), expr _ (term _ (hfactor a))⟩

/-- What holds of a spent allowance and of a rule with every allowance holds
    of the rule behind a payment. -/
theorem paying_cases {motive : Parser Expr → Prop} (hspent : motive spent)
    {rule : Nat → Parser Expr} (h : ∀ a, motive (rule a)) (cost a : Nat) :
    motive (paying cost rule a) := by
  rw [paying]
  by_cases ha : cost ≤ a
  · rw [if_pos ha]
    exact h (a - cost)
  · rw [if_neg ha]
    exact hspent

/-! ## Every rule is orderly -/

/-- Without allowance, every run is given up. -/
theorem orderly_spent : spent.Orderly := fun _ => rfl

/-- The words for the truth values are orderly, being literals. -/
theorem orderly_words : ∀ p ∈ [trueWord, falseWord], p.Orderly :=
  List.forall_mem_cons.mpr ⟨orderly_labelled _ _ (by decide),
    List.forall_mem_singleton.mpr (orderly_labelled _ _ (by decide))⟩

/-- A truth value is one of the two words. -/
theorem orderly_constant : constant.Orderly :=
  ((orderly_choice orderly_words (List.cons_ne_nil _ _)).label _).map _

/-- Behind the sign of negation, the operand is free to move on. -/
theorem orderly_negationOf {p : Parser Expr} (hp : p.Orderly) : (negationOf p).Orderly :=
  (orderly_labelled _ _ (by decide)).andThen (hp.committing.map _)

/-- A group moves on by its parentheses and what is in them. -/
theorem orderly_groupOf {p : Parser Expr} (hp : p.Orderly) : (groupOf p).Orderly :=
  (orderly_labelled _ _ (by decide)).andThen
    (hp.followedBy (orderly_labelled _ _ (by decide)))

/-- So all that a factor tries is orderly. -/
theorem orderly_alternatives {n g : Parser Expr} (hn : n.Orderly) (hg : g.Orderly) :
    ∀ p ∈ [n, g, constant], p.Orderly :=
  List.forall_mem_cons.mpr
    ⟨hn, List.forall_mem_cons.mpr ⟨hg, List.forall_mem_singleton.mpr orderly_constant⟩⟩

/-- A factor is the first of its alternatives that matches. -/
theorem orderly_factorOf {n g : Parser Expr} (hn : n.Orderly) (hg : g.Orderly) :
    (factorOf n g).Orderly :=
  (orderly_choice (orderly_alternatives hn hg) (List.cons_ne_nil _ _)).rule _

/-- A chain of orderly operands is orderly at either level. -/
theorem orderly_termOf {p : Parser Expr} (hp : p.Orderly) : (termOf p).Orderly := by
  rw [termOf_eq]
  exact (orderly_chain _ hp).rule _

theorem orderly_exprOf {p : Parser Expr} (hp : p.Orderly) : (exprOf p).Orderly := by
  rw [exprOf_eq]
  exact (orderly_chain _ hp).rule _

/-- EVERY RULE IS ORDERLY, whatever its allowance. -/
theorem orderly_rules (a : Nat) : (factor a).Orderly ∧ (term a).Orderly ∧ (expr a).Orderly :=
  rule_induction (motive := fun _ p => p.Orderly) (fun _ => orderly_spent)
    (fun _ _ hp hq => orderly_factorOf (orderly_negationOf hp) (orderly_groupOf hq))
    (fun _ hp => orderly_termOf hp) (fun _ hp => orderly_exprOf hp) a

theorem orderly_factor (a : Nat) : (factor a).Orderly := (orderly_rules a).1

theorem orderly_term (a : Nat) : (term a).Orderly := (orderly_rules a).2.1

theorem orderly_expr (a : Nat) : (expr a).Orderly := (orderly_rules a).2.2

/-- The rules behind a payment are orderly as well: either they run with what is
    left, or nothing does. -/
theorem orderly_negation (a : Nat) : (negation a).Orderly :=
  orderly_negationOf (paying_cases orderly_spent orderly_factor _ a)

theorem orderly_group (a : Nat) : (group a).Orderly :=
  orderly_groupOf (paying_cases orderly_spent orderly_expr _ a)

/-- An ample allowance is an allowance. -/
theorem orderly_unlimited {rule : Nat → Parser Expr} (h : ∀ a, (rule a).Orderly) :
    (unlimited rule).Orderly := fun c => h (ample c) c

/-! ## What a rule matches is derived by it -/

/-- A parser reads what a rule derives. -/
def Reads (level : Level) (p : Parser Expr) : Prop :=
  ∀ {c c₁ : Cursor} {e : Expr}, c.Inside → p c = .parsed e c₁ →
    ∃ s, c.Spans s c₁ ∧ Derives level s e

/-- A truth value is one of the two words. -/
theorem reads_constant : Reads .factor constant := by
  intro c c₁ e hc h
  obtain ⟨b, hb, rfl⟩ := of_map_parsed h
  obtain ⟨p, hmem, hp⟩ := of_tryAll_parsed (of_mapFailure_parsed hb)
  simp only [List.mem_cons, List.not_mem_nil, or_false] at hmem
  rcases hmem with rfl | rfl
  · obtain ⟨rfl, hs⟩ := spans_of_literal hc hp
    exact ⟨_, hs, .trueWord⟩
  · obtain ⟨rfl, hs⟩ := spans_of_literal hc hp
    exact ⟨_, hs, .falseWord⟩

/-- What is matched behind the sign is derived, so the whole is a negation. -/
theorem reads_negationOf {p : Parser Expr} (hp : Reads .factor p) :
    Reads .factor (negationOf p) := by
  intro c c₂ e hc h
  obtain ⟨_, c₁, hbang, h₁⟩ := of_bind_parsed h
  obtain ⟨x, hx, rfl⟩ := of_map_parsed h₁
  obtain ⟨-, hs₁⟩ := spans_of_literal hc hbang
  obtain ⟨s, hs, hd⟩ := hp hs₁.inside_next (of_mapFailure_parsed hx)
  exact ⟨_, hs₁.trans hs, .negation hd⟩

/-- What is matched between the parentheses is derived, so the whole is derived
    as a group. -/
theorem reads_groupOf {p : Parser Expr} (hp : Reads .expr p) : Reads .factor (groupOf p) := by
  intro c c₃ e hc h
  obtain ⟨_, c₁, hopen, h₁⟩ := of_bind_parsed h
  obtain ⟨x, c₂, hx, h₂⟩ := of_bind_parsed h₁
  obtain ⟨_, c₃', hclose, h₃⟩ := of_bind_parsed h₂
  obtain ⟨-, hs₁⟩ := spans_of_literal hc hopen
  obtain ⟨s, hs, hd⟩ := hp hs₁.inside_next hx
  obtain ⟨-, hs₃⟩ := spans_of_literal hs.inside_next hclose
  cases h₃
  exact ⟨_, (hs₁.trans hs).trans hs₃, .group hd⟩

/-- Whichever alternative matches a factor, its match is derived. -/
theorem reads_factorOf {n g : Parser Expr} (hn : Reads .factor n) (hg : Reads .factor g) :
    Reads .factor (factorOf n g) := by
  intro c c₁ e hc h
  obtain ⟨p, hmem, hp⟩ := of_tryAll_parsed (of_mapFailure_parsed h)
  simp only [List.mem_cons, List.not_mem_nil, or_false] at hmem
  rcases hmem with rfl | rfl | rfl
  · exact hn hc hp
  · exact hg hc hp
  · exact reads_constant hc hp

/-- The loop keeps a derivation of what has been read up to where it stands. -/
theorem goOn_reads {op : Operator} {p : Parser Expr} (ho : p.Orderly)
    (hp : Reads op.operandLevel p) {c₀ c c₁ : Cursor} {s : List Char} {x e : Expr}
    (hs : c₀.Spans s c) (hd : Derives op.level s x) (h : goOn op p x c = .parsed e c₁) :
    ∃ s₁, c₀.Spans s₁ c₁ ∧ Derives op.level s₁ e := by
  -- what stands between the beginning of the chain and the loop is derived
  refine goOn_induction op ho (motive := fun x c o => ∀ s, c₀.Spans s c →
    Derives op.level s x → ∀ e c₁, o = .parsed e c₁ →
    ∃ s₁, c₀.Spans s₁ c₁ ∧ Derives op.level s₁ e) ?_ ?_ ?_ x c s hs hd e c₁ h
  · intro x c s hs hd e c₁ h
    cases h
    exact ⟨s, hs, hd⟩
  · intro x c fault _ _ s hs hd e c₁ h
    cases h
  · intro x c y c₂ o hstarts hy ih s hs hd e c₁ h
    have hsign := (Cursor.startsWith_iff_spans hs.inside_next op.symbol).mp hstarts
    obtain ⟨t, ht, hdt⟩ := hp hsign.inside_next hy
    exact ih _ ((hs.trans hsign).trans ht) (hd.join hdt) e c₁ h

/-- A chain reads what its level derives: its first operand, and then turn by
    turn. -/
theorem reads_chain (op : Operator) {p : Parser Expr} (ho : p.Orderly)
    (hp : Reads op.operandLevel p) : Reads op.level (chain op p) := by
  intro c c₂ e hc h
  obtain ⟨x, c₁, hx, h₁⟩ := of_bind_parsed h
  obtain ⟨s, hs, hd⟩ := hp hc hx
  exact goOn_reads ho hp hs hd.single h₁

/-- EVERY RULE READS WHAT IT DERIVES, whatever its allowance. -/
theorem reads_rules (a : Nat) :
    Reads .factor (factor a) ∧ Reads .term (term a) ∧ Reads .expr (expr a) := by
  have h := rule_induction (motive := fun level p => p.Orderly ∧ Reads level p) ?_ ?_ ?_ ?_ a
  · exact ⟨h.1.2, h.2.1.2, h.2.2.2⟩
  · intro level
    exact ⟨orderly_spent, fun _ h => nomatch h⟩
  · rintro p q ⟨hop, hp⟩ ⟨hoq, hq⟩
    exact ⟨orderly_factorOf (orderly_negationOf hop) (orderly_groupOf hoq),
      reads_factorOf (reads_negationOf hp) (reads_groupOf hq)⟩
  · rintro p ⟨hop, hp⟩
    refine ⟨orderly_termOf hop, fun hc h => ?_⟩
    rw [termOf_eq] at h
    exact reads_chain .and hop hp hc (of_mapFailure_parsed h)
  · rintro p ⟨hop, hp⟩
    refine ⟨orderly_exprOf hop, fun hc h => ?_⟩
    rw [exprOf_eq] at h
    exact reads_chain .or hop hp hc (of_mapFailure_parsed h)

theorem reads_expr (a : Nat) : Reads .expr (expr a) := (reads_rules a).2.2

/-! ## What a rule derives is matched by it -/

variable {n g p : Parser Expr} {c c₁ c₂ : Cursor} {e : Expr}

/-- Where the one word stands, it is read. -/
theorem constant_of_trueWord (h : c.startsWith "true" = true) :
    constant c = .parsed (.literal true) (c.advance 4) := by
  have hmatch : choice [trueWord, falseWord] c = .parsed true (c.advance 4) :=
    tryAll_of_parsed (literal_of_startsWith h true) []
  rw [constant, Parser.map, Parser.label, hmatch]
  rfl

/-- Where the other one stands, it is read after the first has been tried. -/
theorem constant_of_falseWord (ht : c.startsWith "true" = false)
    (h : c.startsWith "false" = true) :
    constant c = .parsed (.literal false) (c.advance 5) := by
  have htrue : trueWord.Declines c := declines_literal ht true
  have hmatch : choice [trueWord, falseWord] c = .parsed false (c.advance 5) :=
    tryAll_of_declines htrue (tryAll_of_parsed (literal_of_startsWith h false)) []
  unfold constant Parser.map Parser.label
  rw [hmatch]
  rfl

/-- A sign with an operand behind it is a negation. -/
theorem negationOf_of_parsed (h : c.startsWith "!" = true)
    (hp : p (c.advance 1) = .parsed e c₂) : negationOf p c = .parsed (.not e) c₂ := by
  have hbang : bang c = .parsed "!" (c.advance 1) := literal_of_startsWith h "!"
  rw [negationOf, andThen, bind_of_parsed hbang]
  show ((p (c.advance 1)).mapFailure Failure.commit).map Expr.not = _
  rw [hp]
  rfl

/-- Without the sign there is no negation, and the way back stays open. -/
theorem declines_negationOf (h : c.startsWith "!" = false) (p : Parser Expr) :
    (negationOf p).Declines c :=
  (declines_literal h "!").bind _

/-- An expression between two parentheses is a group. -/
theorem groupOf_of_parsed (h : c.startsWith "(" = true) (hp : p (c.advance 1) = .parsed e c₂)
    (h₂ : c₂.startsWith ")" = true) : groupOf p c = .parsed e (c₂.advance 1) := by
  have hopen : opening c = .parsed "(" (c.advance 1) := literal_of_startsWith h "("
  have hclose : closing c₂ = .parsed ")" (c₂.advance 1) := literal_of_startsWith h₂ ")"
  rw [groupOf, andThen, followedBy, bind_of_parsed hopen, bind_of_parsed hp, bind_of_parsed hclose]
  rfl

/-- Without the first of them there is none, and the way back stays open. -/
theorem declines_groupOf (h : c.startsWith "(" = false) (p : Parser Expr) :
    (groupOf p).Declines c :=
  (declines_literal h "(").bind _

/-- A factor is a negation if it can be. -/
theorem factorOf_of_negation (h : n c = .parsed e c₁) (g : Parser Expr) :
    factorOf n g c = .parsed e c₁ := by
  rw [factorOf, Parser.rule, choice, tryAll_of_parsed h]
  rfl

/-- It is a group if it is no negation. -/
theorem factorOf_of_group (hn : n.Declines c) (h : g c = .parsed e c₁) :
    factorOf n g c = .parsed e c₁ := by
  rw [factorOf, Parser.rule, choice, tryAll_of_declines hn (tryAll_of_parsed h)]
  rfl

/-- And it is a truth value if it is neither. -/
theorem factorOf_of_constant (hn : n.Declines c) (hg : g.Declines c)
    (h : constant c = .parsed e c₁) : factorOf n g c = .parsed e c₁ := by
  rw [factorOf, Parser.rule, choice,
    tryAll_of_declines hn (tryAll_of_declines hg (tryAll_of_parsed h))]
  rfl

/-- What a rule comes to where a text of tree `e` stands up to `c₁`.  Chains
    are left to their loop, since more of them may follow; a chain of
    disjunctions only gets there if no conjunction follows. -/
def Runs (a : Nat) (c : Cursor) (e : Expr) (c₁ : Cursor) : Level → Prop
  | .factor => factor a c = .parsed e c₁
  | .term => term a c = goOn .and (factor a) e c₁
  | .expr => c₁.startsWith "&&" = false → expr a c = goOn .or (term a) e c₁

/-- A word at `c` is read past the signs of negation and of groups. -/
theorem factor_of_constant {lead : String} {x : Char} {xs : List Char}
    (hl : lead.toList = x :: xs) (hbang : x ≠ '!') (hopen : x ≠ '(')
    (hs : c.startsWith lead = true) (h : constant c = .parsed e c₁) (a : Nat) :
    factor a c = .parsed e c₁ := by
  rw [factor_eq]
  exact factorOf_of_constant
    (declines_negationOf (Cursor.startsWith_eq_false hs hl rfl hbang) _)
    (declines_groupOf (Cursor.startsWith_eq_false hs hl rfl hopen) _) h

/-- Where an operand is read with what is left after paying for its sign, the
    negation is a factor. -/
theorem factor_of_bang {a : Nat} (h : c.startsWith "!" = true) (ha : negationCost ≤ a)
    (hp : factor (a - negationCost) (c.advance 1) = .parsed e c₁) :
    factor a c = .parsed (.not e) c₁ := by
  rw [factor_eq]
  refine factorOf_of_negation (negationOf_of_parsed h ?_) _
  rw [paying, if_pos ha]
  exact hp

/-- Where an expression is read with what is left after paying for its
    parenthesis, the group is a factor. -/
theorem factor_of_opening {a : Nat} (h : c.startsWith "(" = true) (ha : groupCost ≤ a)
    (hp : expr (a - groupCost) (c.advance 1) = .parsed e c₁)
    (hclose : c₁.startsWith ")" = true) : factor a c = .parsed e (c₁.advance 1) := by
  rw [factor_eq]
  refine factorOf_of_group (declines_negationOf
    (Cursor.startsWith_eq_false h rfl rfl (by decide)) _) (groupOf_of_parsed h ?_ hclose)
  rw [paying, if_pos ha]
  exact hp

end Grammar

/-- An allowance that covers a text covers its parts. -/
theorem Reading.covers_part {a m n : Nat} (h : Reading.allowancePerChar * n ≤ a) (hm : m ≤ n) :
    Reading.allowancePerChar * m ≤ a :=
  Nat.le_trans (Nat.mul_le_mul_left _ hm) h

open Grammar Reading in
/-- Where a derived text stands, its rule runs through it, if the allowance
    covers it. -/
theorem Derives.runs {level : Level} {s : List Char} {e : Expr} (h : Derives level s e) :
    ∀ {a : Nat} {c c₁ : Cursor}, c.Spans s c₁ → allowancePerChar * s.length ≤ a →
      Runs a c e c₁ level := by
  induction h with
  | trueWord =>
      intro a c c₁ hs _
      have hstarts : c.startsWith "true" = true := hs.startsWith
      rw [hs.next]
      exact factor_of_constant rfl (by decide) (by decide) hstarts
        (constant_of_trueWord hstarts) a
  | falseWord =>
      intro a c c₁ hs _
      have hstarts : c.startsWith "false" = true := hs.startsWith
      have ht : c.startsWith "true" = false :=
        Cursor.startsWith_eq_false hstarts rfl rfl (by decide)
      rw [hs.next]
      exact factor_of_constant rfl (by decide) (by decide) hstarts
        (constant_of_falseWord ht hstarts) a
  | @negation s e _ ih =>
      intro a c c₂ hs ha
      obtain ⟨c₁, hs₁, hs₂⟩ := hs.split
      have hlen : ("!".toList ++ s).length = s.length + 1 := by simp
      -- the sign has added 6 to the allowance, and its operand costs 4
      have hcost : negationCost ≤ a ∧ allowancePerChar * s.length ≤ a - negationCost := by
        rw [hlen] at ha
        unfold allowancePerChar negationCost at *
        omega
      have hp : factor (a - negationCost) c₁ = .parsed e c₂ := ih hs₂ hcost.2
      rw [hs₁.next] at hp
      exact factor_of_bang hs₁.startsWith hcost.1 hp
  | @group s e _ ih =>
      intro a c c₃ hs ha
      obtain ⟨c₂, hs₂, hs₃⟩ := hs.split
      obtain ⟨c₁, hs₁, hs₂⟩ := hs₂.split
      have hclose : c₂.startsWith ")" = true := hs₃.startsWith
      have hlen : ("(".toList ++ s ++ ")".toList).length = s.length + 2 := by simp
      -- the parentheses have added 12 to the allowance, and what is in them costs 10
      have hcost : groupCost ≤ a ∧ allowancePerChar * s.length ≤ a - groupCost := by
        rw [hlen] at ha
        unfold allowancePerChar groupCost at *
        omega
      have hrun : expr (a - groupCost) c₁ = goOn .or (term (a - groupCost)) e c₂ :=
        ih hs₂ hcost.2 (Cursor.startsWith_eq_false hclose rfl rfl (by decide))
      -- the inner chain stops where the parenthesis stands
      rw [goOn_of_not_startsWith (orderly_term _)
        (Cursor.startsWith_eq_false hclose rfl rfl (by decide)), hs₁.next] at hrun
      rw [hs₃.next]
      exact factor_of_opening hs₁.startsWith hcost.1 hrun hclose
  | ofFactor _ ih =>
      intro a c c₁ hs ha
      show termOf (factor a) c = _
      rw [termOf_eq]
      exact rule_chain_of_parsed (orderly_factor a) (ih hs ha) "term"
  | @and s t l r _ _ ihl ihr =>
      intro a c c₃ hs ha
      obtain ⟨c₂, hs₂, hs₃⟩ := hs.split
      obtain ⟨c₁, hs₁, hs₂⟩ := hs₂.split
      simp only [List.length_append] at ha
      have hl : term a c = goOn .and (factor a) l c₁ := ihl hs₁ (covers_part ha (by omega))
      have hr : factor a c₂ = .parsed r c₃ := ihr hs₃ (covers_part ha (by omega))
      rw [hs₂.next] at hr
      show term a c = _
      rw [hl]
      exact goOn_of_parsed .and (orderly_factor a) hs₂.startsWith hr l
  | ofTerm _ ih =>
      intro a c c₁ hs ha hand
      have h : term a c = goOn .and (factor a) _ c₁ := ih hs ha
      rw [goOn_of_not_startsWith (orderly_factor a) hand] at h
      show exprOf (term a) c = _
      rw [exprOf_eq]
      exact rule_chain_of_parsed (orderly_term a) h "expr"
  | @or s t l r _ _ ihl ihr =>
      intro a c c₃ hs ha hand
      obtain ⟨c₂, hs₂, hs₃⟩ := hs.split
      obtain ⟨c₁, hs₁, hs₂⟩ := hs₂.split
      have hor : c₁.startsWith "||" = true := hs₂.startsWith
      simp only [List.length_append] at ha
      have hl : expr a c = goOn .or (term a) l c₁ := ihl hs₁ (covers_part ha (by omega))
        (Cursor.startsWith_eq_false hor rfl rfl (by decide))
      have hr : term a c₂ = goOn .and (factor a) r c₃ := ihr hs₃ (covers_part ha (by omega))
      -- the operand on the right is complete, since no conjunction follows
      rw [goOn_of_not_startsWith (orderly_factor a) hand, hs₂.next] at hr
      rw [hl]
      exact goOn_of_parsed .or (orderly_term a) hor hr l

namespace Grammar

open Reading

/-- A derived expression is read where neither operator follows it. -/
theorem expr_of_derives {a : Nat} {s : List Char} {e : Expr} {c c₁ : Cursor}
    (h : Derives .expr s e) (hs : c.Spans s c₁) (ha : allowancePerChar * s.length ≤ a)
    (hand : c₁.startsWith "&&" = false) (hor : c₁.startsWith "||" = false) :
    expr a c = .parsed e c₁ := by
  have hrun : expr a c = goOn .or (term a) e c₁ := h.runs hs ha hand
  rw [hrun]
  exact goOn_of_not_startsWith (orderly_term a) hor e

end Grammar

end TruthExpr

