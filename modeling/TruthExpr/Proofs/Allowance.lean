import TruthExpr.Proofs.Descent

/-! # Allowances — they decide whether a rule answers, not what it answers

    An allowance pays for nesting and for nothing else.  The route:

    * `approximates_rule`: a rule with more allowance comes to the same,
      unless the rule with less is given up for its depth;
    * `answers_rule`: `groupCost` for every character ahead is enough for a
      rule to answer, since whatever is paid for moves the cursor on;
    * `aborted_or_unlimited`: so a rule with any allowance at all is given
      up, or comes to what it comes to without a limit. -/

namespace TruthExpr

variable {α β : Type}

namespace Outcome

theorem parsed_ne_aborted (x : α) (c : Cursor) (fault : Fault) :
    (parsed x c : Outcome α) ≠ .aborted fault := fun h => nomatch h

theorem failed_ne_aborted (f : Failure) (fault : Fault) :
    (failed f : Outcome α) ≠ .aborted fault := fun h => nomatch h

end Outcome

namespace Parser

variable {p q : Parser α}

/-- Wherever `p` is not given up for its depth, `q` comes to the same. -/
def Approximates (p q : Parser α) : Prop :=
  ∀ c, p c = .aborted .nestedTooDeeply ∨ q c = p c

theorem Approximates.refl (p : Parser α) : Approximates p p := fun _ => Or.inr rfl

/-- A match is the same with more allowance. -/
theorem Approximates.parsed (h : Approximates p q) {c c₁ : Cursor} {x : α}
    (hp : p c = .parsed x c₁) : q c = .parsed x c₁ := by
  rcases h c with hab | hq
  · exact absurd (hp.symm.trans hab) (Outcome.parsed_ne_aborted _ _ _)
  · exact hq.trans hp

/-- What is done to outcomes does not matter if it leaves aborts alone. -/
theorem Approximates.lift (h : Approximates p q) (g : Cursor → Outcome α → Outcome β)
    (hg : ∀ c, g c (.aborted .nestedTooDeeply) = .aborted .nestedTooDeeply) :
    Approximates (fun c => g c (p c)) (fun c => g c (q c)) := by
  intro c
  rcases h c with hp | hq
  · refine Or.inl ?_
    show g c (p c) = _
    rw [hp]
    exact hg c
  · refine Or.inr ?_
    show g c (q c) = g c (p c)
    rw [hq]

/-- What is done with a match may itself have been given more allowance. -/
theorem Approximates.bind (h : Approximates p q) {k l : α → Parser β}
    (hk : ∀ x, Approximates (k x) (l x)) : Approximates (p.bind k) (q.bind l) := by
  intro c
  rcases h c with hp | hq
  · exact Or.inl (bind_of_aborted hp k)
  · cases hp : p c with
    | parsed x c₁ =>
        rw [bind_of_parsed hp, bind_of_parsed (hq.trans hp)]
        exact hk x c₁
    | failed f => exact Or.inr (by rw [bind_of_failed hp, bind_of_failed (hq.trans hp)])
    | aborted fault => exact Or.inr (by rw [bind_of_aborted hp, bind_of_aborted (hq.trans hp)])

/-- The alternatives behind it may have more allowance as well, whatever has
    failed before them. -/
theorem Approximates.tryAll_cons (h : Approximates p q) {ps qs : List (Parser α)}
    (hs : ∀ failures, Approximates (tryAll ps failures) (tryAll qs failures))
    (failures : List Failure) :
    Approximates (tryAll (p :: ps) failures) (tryAll (q :: qs) failures) := by
  intro c
  rcases h c with hp | hq
  · refine Or.inl ?_
    rw [tryAll, hp]
  · rw [tryAll, tryAll, hq]
    cases hp : p c with
    | parsed x c₁ => exact Or.inr rfl
    | failed f =>
        by_cases hc : f.committed = true
        · simp only [if_pos hc]
          exact Or.inr trivial
        · simp only [if_neg hc]
          exact hs (failures ++ [f]) c
    | aborted fault => exact Or.inr rfl

/-- A round given up for its depth ends the repetition with it, so all rounds
    before the end are the same. -/
theorem Approximates.rounds (h : Approximates p q) (s : Parser β) (n : Nat) :
    Approximates (p.rounds s n) (q.rounds s n) := by
  induction n with
  | zero =>
      intro c
      cases hs : s c with
      | parsed y c₁ =>
          rcases h c₁ with hp | hq
          · exact Or.inl (rounds_of_operand_aborted hs hp 0)
          · refine Or.inr ?_
            rw [Parser.rounds, Parser.rounds]
            simp only [hs, hq]
      | failed f => exact Or.inr (by rw [rounds_of_failed hs, rounds_of_failed hs])
      | aborted fault => exact Or.inr (by rw [rounds_of_aborted hs, rounds_of_aborted hs])
  | succ n ih =>
      intro c
      cases hs : s c with
      | parsed y c₁ =>
          rcases h c₁ with hp | hq
          · exact Or.inl (rounds_of_operand_aborted hs hp (n + 1))
          · cases hp : p c₁ with
            | parsed x c₂ =>
                rw [rounds_of_parsed hs hp, rounds_of_parsed hs (hq.trans hp)]
                exact ih.lift (fun _ => Outcome.map _) (fun _ => rfl) c₂
            | failed f =>
                refine Or.inr ?_
                rw [rounds_of_operand_failed hs hp, rounds_of_operand_failed hs (hq.trans hp)]
            | aborted fault =>
                refine Or.inr ?_
                rw [rounds_of_operand_aborted hs hp, rounds_of_operand_aborted hs (hq.trans hp)]
      | failed f => exact Or.inr (by rw [rounds_of_failed hs, rounds_of_failed hs])
      | aborted fault => exact Or.inr (by rw [rounds_of_aborted hs, rounds_of_aborted hs])

/-! ## Where an abort comes from -/

variable {c : Cursor} {fault : Fault}

/-- A literal needs no allowance. -/
theorem literal_ne_aborted (text : String) (value : α) : literal text value c ≠ .aborted fault := by
  cases hs : c.startsWith text with
  | true =>
      rw [literal_of_startsWith hs]
      exact Outcome.parsed_ne_aborted _ _ _
  | false =>
      obtain ⟨f, hf, -⟩ := declines_literal hs value
      rw [hf]
      exact Outcome.failed_ne_aborted _ _

/-- Two parsers in a row are given up in one of them. -/
theorem of_bind_aborted {k : α → Parser β} (h : p.bind k c = .aborted fault) :
    p c = .aborted fault ∨ ∃ x c₁, p c = .parsed x c₁ ∧ k x c₁ = .aborted fault := by
  cases hp : p c with
  | parsed x c₁ =>
      rw [bind_of_parsed hp] at h
      exact Or.inr ⟨x, c₁, rfl, h⟩
  | failed f =>
      rw [bind_of_failed hp] at h
      exact absurd h (Outcome.failed_ne_aborted _ _)
  | aborted fault₁ =>
      rw [bind_of_aborted hp] at h
      cases h
      exact Or.inl rfl

theorem of_map_aborted {f : α → β} {o : Outcome α} (h : o.map f = .aborted fault) :
    o = .aborted fault := by
  cases o <;> cases h
  rfl

theorem of_mapFailure_aborted {g : Failure → Failure} {o : Outcome α}
    (h : o.mapFailure g = .aborted fault) : o = .aborted fault := by
  cases o <;> cases h
  rfl

/-- A choice is given up for its depth in one of its alternatives. -/
theorem of_tryAll_aborted {ps : List (Parser α)} {failures : List Failure}
    (h : tryAll ps failures c = .aborted .nestedTooDeeply) :
    ∃ p ∈ ps, p c = .aborted .nestedTooDeeply := by
  induction ps generalizing failures with
  | nil =>
      rw [tryAll] at h
      cases hm : Failure.merge? failures <;> rw [hm] at h <;> cases h
  | cons p ps ih =>
      rw [tryAll] at h
      cases hp : p c with
      | parsed x c₁ => rw [hp] at h; cases h
      | failed f =>
          rw [hp] at h
          by_cases hc : f.committed = true
          · simp only [if_pos hc] at h
            cases h
          · simp only [if_neg hc] at h
            obtain ⟨p', hmem, hp'⟩ := ih h
            exact ⟨p', List.mem_cons_of_mem _ hmem, hp'⟩
      | aborted fault =>
          rw [hp] at h
          exact ⟨p, List.mem_cons_self .., hp.trans h⟩

end Parser

namespace Grammar

open TruthExpr.Parser

/-- The parser of a rule, with an allowance. -/
def ruleAt : Level → Nat → Parser Expr
  | .factor => factor
  | .term => term
  | .expr => expr

/-! ## More allowance changes no answer -/

section Approximation

variable {p q : Parser Expr}

theorem approximates_spent (q : Parser Expr) : Approximates spent q := fun _ => Or.inl rfl

/-- The operand is all that a negation spends anything on. -/
theorem approximates_negationOf (h : Approximates p q) :
    Approximates (negationOf p) (negationOf q) :=
  (Approximates.refl bang).bind fun _ =>
    h.lift (fun _ o => (o.mapFailure Failure.commit).map Expr.not) fun _ => rfl

theorem approximates_groupOf (h : Approximates p q) : Approximates (groupOf p) (groupOf q) :=
  (Approximates.refl opening).bind fun _ => h.bind fun _ => .refl _

/-- A factor chooses among a negation, a group and the constants, and the
    constants spend nothing. -/
theorem approximates_factorOf {n n₁ g g₁ : Parser Expr} (hn : Approximates n n₁)
    (hg : Approximates g g₁) : Approximates (factorOf n g) (factorOf n₁ g₁) := by
  have hchoice : Approximates (choice [n, g, constant]) (choice [n₁, g₁, constant]) :=
    hn.tryAll_cons (hg.tryAll_cons fun _ => .refl _) []
  exact hchoice.lift (fun c o => o.mapFailure fun f => f.within "factor" c.pos) fun _ => rfl

/-- A chain has as many rounds as there are characters ahead, whatever its
    operands may spend. -/
theorem approximates_chain (op : Operator) (h : Approximates p q) :
    Approximates (chain op p) (chain op q) :=
  h.bind fun x c =>
    (h.rounds (signOf op) c.distance).lift (fun _ => Outcome.tryMap (Expr.foldPairs x))
      (fun _ => rfl) c

theorem approximates_termOf (h : Approximates p q) : Approximates (termOf p) (termOf q) := by
  rw [termOf_eq, termOf_eq]
  exact (approximates_chain .and h).lift
    (fun c o => o.mapFailure fun f => f.within "term" c.pos) fun _ => rfl

theorem approximates_exprOf (h : Approximates p q) : Approximates (exprOf p) (exprOf q) := by
  rw [exprOf_eq, exprOf_eq]
  exact (approximates_chain .or h).lift
    (fun c o => o.mapFailure fun f => f.within "expr" c.pos) fun _ => rfl

/-- Who has more can pay for whatever the other can pay for, and keeps more. -/
theorem approximates_paying {cost a b : Nat} {p : Nat → Parser Expr} (hab : a ≤ b)
    (h : cost ≤ a → Approximates (p (a - cost)) (p (b - cost))) :
    Approximates (paying cost p a) (paying cost p b) := by
  rw [paying, paying]
  by_cases ha : cost ≤ a
  · rw [if_pos ha, if_pos (Nat.le_trans ha hab)]
    exact h ha
  · rw [if_neg ha]
    exact approximates_spent _

/-- A negation or a group spends something before it comes to a factor again, so
    the induction is on the smaller allowance. -/
theorem approximates_factor : ∀ {a b : Nat}, a ≤ b → Approximates (factor a) (factor b) := by
  intro a
  induction a using Nat.strongRecOn with
  | ind a ih =>
      intro b hab
      rw [factor_eq, factor_eq]
      refine approximates_factorOf (approximates_negationOf (approximates_paying hab ?_))
        (approximates_groupOf (approximates_paying hab ?_))
      · intro ha
        exact ih _ (Nat.sub_lt_of_pos_le (by decide) ha) (Nat.sub_le_sub_right hab _)
      · intro ha
        have hfactor := ih _ (Nat.sub_lt_of_pos_le (by decide) ha) (Nat.sub_le_sub_right hab _)
        exact approximates_exprOf (approximates_termOf hfactor)

/-- A rule with more allowance comes to the same, unless the one with less is
    given up. -/
theorem approximates_rule (level : Level) {a b : Nat} (hab : a ≤ b) :
    Approximates (ruleAt level a) (ruleAt level b) := by
  have hfactor := approximates_factor hab
  cases level with
  | factor => exact hfactor
  | term => exact approximates_termOf hfactor
  | expr => exact approximates_exprOf (approximates_termOf hfactor)

end Approximation

/-! ## Enough allowance for an answer -/

/-- Within `n` characters of the end, the parser is never given up for its
    depth. -/
def AnswersWithin (n : Nat) (p : Parser Expr) : Prop :=
  ∀ c, c.distance ≤ n → p c ≠ .aborted .nestedTooDeeply

variable {n : Nat} {p q : Parser Expr}

theorem answers_constant : AnswersWithin n constant := by
  intro c _ hab
  obtain ⟨p, hmem, hp⟩ := of_tryAll_aborted (of_mapFailure_aborted (of_map_aborted hab))
  simp only [List.mem_cons, List.not_mem_nil, or_false] at hmem
  rcases hmem with rfl | rfl <;> exact literal_ne_aborted _ _ hp

/-- A sign of negation has moved the cursor on. -/
theorem answers_negationOf (h : ∀ m < n, AnswersWithin m p) : AnswersWithin n (negationOf p) := by
  intro c hc hab
  rcases of_bind_aborted hab with hbang | ⟨_, c₁, hbang, h₁⟩
  · exact literal_ne_aborted _ _ hbang
  · have hlt : c₁.distance < c.distance := (orderly_labelled _ _ (by decide)).distance_lt hbang
    exact h c₁.distance (by omega) c₁ (Nat.le_refl _) (of_mapFailure_aborted (of_map_aborted h₁))

/-- So has an opening parenthesis. -/
theorem answers_groupOf (h : ∀ m < n, AnswersWithin m p) : AnswersWithin n (groupOf p) := by
  intro c hc hab
  rcases of_bind_aborted hab with hopen | ⟨_, c₁, hopen, h₁⟩
  · exact literal_ne_aborted _ _ hopen
  · have hlt : c₁.distance < c.distance := (orderly_labelled _ _ (by decide)).distance_lt hopen
    rcases of_bind_aborted h₁ with hp | ⟨x, c₂, -, h₂⟩
    · exact h c₁.distance (by omega) c₁ (Nat.le_refl _) hp
    · rcases of_bind_aborted h₂ with hclose | ⟨_, _, -, h₃⟩
      · exact literal_ne_aborted _ _ hclose
      · exact absurd h₃ (Outcome.parsed_ne_aborted _ _ _)

/-- A factor answers if its negation and its group do. -/
theorem answers_factorOf {n₁ g : Parser Expr} (hn : AnswersWithin n n₁) (hg : AnswersWithin n g) :
    AnswersWithin n (factorOf n₁ g) := by
  intro c hc hab
  obtain ⟨p, hmem, hp⟩ := of_tryAll_aborted (of_mapFailure_aborted hab)
  simp only [List.mem_cons, List.not_mem_nil, or_false] at hmem
  rcases hmem with rfl | rfl | rfl
  · exact hn c hc hp
  · exact hg c hc hp
  · exact answers_constant c hc hp

/-- The loop of a chain comes nearer to the end with every turn. -/
theorem answers_chain (op : Operator) (ho : p.Orderly) (h : AnswersWithin n p) :
    AnswersWithin n (chain op p) := by
  intro c hc hab
  rcases of_bind_aborted hab with hp | ⟨x, c₁, hp, h₁⟩
  · exact h c hc hp
  · have hlt : c₁.distance < c.distance := ho.distance_lt hp
    refine goOn_induction op ho (motive := fun _ c o => c.distance ≤ n →
      o ≠ .aborted .nestedTooDeeply) ?_ ?_ ?_ x c₁ (by omega) h₁
    · intro x c _
      exact Outcome.parsed_ne_aborted _ _ _
    · intro x c fault _ hf hc hab
      cases hab
      refine h _ (Nat.le_trans ?_ hc) hf
      show ((c.text.size : Int) - (c.pos + op.symbol.length)).toNat ≤ c.distance
      rw [Cursor.distance]
      omega
    · intro x c y c₂ o hs hy ih hc
      have hlt := (orderly_signOf op).distance_lt (signOf_of_startsWith hs)
      have hlt₁ := ho.distance_lt hy
      exact ih (by omega)

/-- The loops of a term and of an expression spend nothing, so what is enough
    for a factor is enough for both. -/
theorem answers_rules {a : Nat} (h : AnswersWithin n (factor a)) (level : Level) :
    AnswersWithin n (ruleAt level a) := by
  have hterm : AnswersWithin n (term a) := by
    intro c hc hab
    change termOf (factor a) c = _ at hab
    rw [termOf_eq] at hab
    exact answers_chain .and (orderly_factor a) h c hc (of_mapFailure_aborted hab)
  cases level with
  | factor => exact h
  | term => exact hterm
  | expr =>
      intro c hc hab
      change exprOf (term a) c = _ at hab
      rw [exprOf_eq] at hab
      exact answers_chain .or (orderly_term a) hterm c hc (of_mapFailure_aborted hab)

/-- What is behind a payment answers if the rest of the allowance is enough
    for it. -/
theorem answers_paying {cost m a : Nat} {rule : Nat → Parser Expr}
    (hcost : cost + groupCost * m ≤ a)
    (h : ∀ b, groupCost * m ≤ b → AnswersWithin m (rule b)) :
    AnswersWithin m (paying cost rule a) := by
  rw [paying, if_pos (by omega)]
  exact h (a - cost) (by omega)

/-- Ten for every character ahead pays for whatever may be opened there. -/
theorem answers_rule (level : Level) {a : Nat} (h : groupCost * n ≤ a) :
    AnswersWithin n (ruleAt level a) := by
  refine answers_rules ?_ level
  induction n using Nat.strongRecOn generalizing a with
  | ind n ih =>
      rw [factor_eq]
      refine answers_factorOf (answers_negationOf ?_) (answers_groupOf ?_)
      · intro m hm
        refine answers_paying ?_ fun b hb => ih m hm hb
        simp only [groupCost, negationCost] at *
        omega
      · intro m hm
        refine answers_paying ?_ fun b hb => answers_rules (ih m hm hb) .expr
        simp only [groupCost] at *
        omega

/-- It also pays for a negation and for a group on their own. -/
theorem answers_negation {a : Nat} (h : groupCost * n ≤ a) : AnswersWithin n (negation a) := by
  refine answers_negationOf fun m hm => answers_paying ?_ fun b hb => answers_rule .factor hb
  simp only [groupCost, negationCost] at *
  omega

theorem answers_group {a : Nat} (h : groupCost * n ≤ a) : AnswersWithin n (group a) := by
  refine answers_groupOf fun m hm => answers_paying ?_ fun b hb => answers_rule .expr hb
  simp only [groupCost] at *
  omega

/-! ## Any allowance -/

/-- Without a limit, a rule answers everywhere. -/
theorem unlimited_ne_aborted (level : Level) (c : Cursor) :
    unlimited (ruleAt level) c ≠ .aborted .nestedTooDeeply :=
  answers_rule level (Nat.le_refl (ample c)) c (Nat.le_refl _)

/-- With any allowance, a rule is given up for its depth or comes to what it
    comes to without a limit. -/
theorem aborted_or_unlimited (level : Level) (a : Nat) (c : Cursor) :
    ruleAt level a c = .aborted .nestedTooDeeply ∨
      ruleAt level a c = unlimited (ruleAt level) c := by
  rcases Nat.le_total a (ample c) with hle | hle
  · rcases approximates_rule level hle c with hab | heq
    · exact Or.inl hab
    · exact Or.inr heq.symm
  · rcases approximates_rule level hle c with hab | heq
    · exact absurd hab (unlimited_ne_aborted level c)
    · exact Or.inr heq

theorem approximates_unlimited (level : Level) (a : Nat) :
    Approximates (ruleAt level a) (unlimited (ruleAt level)) := fun c =>
  (aborted_or_unlimited level a c).imp_right Eq.symm

end Grammar

end TruthExpr
