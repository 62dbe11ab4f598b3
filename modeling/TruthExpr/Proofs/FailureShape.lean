import TruthExpr.Proofs.Allowance
import TruthExpr.Proofs.Merging

/-! # Failure shapes — what the failure of an expression says, in full

    An expression fails when its first factor does, and a factor fails behind
    its signs of negation: no operand stands there, or a group does that is
    wrong inside or not closed.  The route:

    * `FactorFails` says which failures these are, sign by sign and group by
      group, and `factor_fails` that a factor has no others;
    * `expr_failed`: an expression only adds its two frames;
    * `failure_shape`: the signs at the front taken together, this is the
      whole failure in closed form. -/

namespace TruthExpr

namespace Failure

variable {f : Failure}

/-- What is left when nothing has matched for a factor at `start`.  A group is
    what comes furthest, and lacks `missing` at `position`. -/
def ofFactor (start : Int) (missing : String) (position : Int) : Failure :=
  { expected := ["\"!\"", missing, "boolean"], position, frames := [⟨"factor", start⟩] }

/-- The failure of an expression that begins with a factor that fails. -/
def ofExpr (f : Failure) (start : Int) : Failure :=
  (f.within "term" start).within "expr" start

theorem length_le_foldl_context (frames : List Frame) :
    ∀ text : String, text.length ≤
      (frames.foldl (fun text g => text ++ ", followed by " ++ g.label) text).length := by
  induction frames with
  | nil => intro text; exact Nat.le_refl _
  | cons g frames ih =>
      intro text
      have hle := ih (text ++ ", followed by " ++ g.label)
      rw [String.length_append, String.length_append] at hle
      show text.length ≤ (frames.foldl _ (text ++ ", followed by " ++ g.label)).length
      omega

/-- A failure under some rule takes more words than a single expectation. -/
theorem length_describe (h : f.frames ≠ []) : 18 ≤ f.describe.length := by
  obtain ⟨g, frames, hf⟩ := List.exists_cons_of_ne_nil h
  have hle := length_le_foldl_context frames (" while processing " ++ g.label)
  rw [String.length_append] at hle
  have hwords : " while processing ".length = 18 := by decide
  rw [describe, hf, String.length_append]
  show 18 ≤ _ + (frames.foldl _ (" while processing " ++ g.label)).length
  omega

/-- The failures of the three alternatives of a factor stay apart in the
    merged one, where the one of the group counts as the furthest. -/
theorem merge_alternatives {start : Int} (hpos : start ≤ f.position)
    (hbang : f.describe ≠ "\"!\"") (hword : f.describe ≠ "boolean") :
    merge { expected := ["\"!\""], position := start }
      [f, { expected := ["boolean"], position := start }] =
        { expected := ["\"!\"", f.describe, "boolean"], position := f.position } := by
  have hmax : max (max start f.position) start = f.position := by omega
  rw [merge]
  simp only [List.map_cons, List.map_nil, describe_of_no_frames, furthest, List.foldl_cons,
    List.foldl_nil, hmax]
  simp [List.eraseDups_cons, hbang, Ne.symm hword]

end Failure

namespace Grammar

open TruthExpr.Parser

variable {a : Nat} {c c₁ : Cursor} {f g : Failure} {e : Expr} {p q : Parser Expr}

/-- `FactorFails c f`: there is no factor at `c`, for the reason `f`. -/
inductive FactorFails : Cursor → Failure → Prop where
  | operand {c : Cursor} :
      c.startsWith "!" = false → c.startsWith "(" = false →
      c.startsWith "true" = false → c.startsWith "false" = false →
      FactorFails c (.ofFactor c.pos "\"(\"" c.pos)
  | negation {c : Cursor} {f : Failure} :
      c.startsWith "!" = true → FactorFails (c.advance 1) f →
      FactorFails c (f.within "factor" c.pos)
  | unclosed {c c₁ : Cursor} {e : Expr} :
      c.startsWith "(" = true → unlimited expr (c.advance 1) = .parsed e c₁ →
      c₁.startsWith ")" = false → FactorFails c (.ofFactor c.pos "\")\"" c₁.pos)
  | group {c : Cursor} {f : Failure} :
      c.startsWith "(" = true →
      unlimited expr (c.advance 1) = .failed (f.ofExpr (c.advance 1).pos) →
      FactorFails (c.advance 1) f →
      FactorFails c (.ofFactor c.pos (f.ofExpr (c.advance 1).pos).describe f.position)

namespace FactorFails

/-- A factor that fails has not committed itself. -/
theorem committed_eq (h : FactorFails c f) : f.committed = false := by
  induction h with
  | operand => rfl
  | negation _ _ ih => exact ih
  | unclosed => rfl
  | group => rfl

theorem remainder_eq (h : FactorFails c f) : f.remainder = none := by
  induction h with
  | operand => rfl
  | negation _ _ ih => exact ih
  | unclosed => rfl
  | group => rfl

theorem pos_le (h : FactorFails c f) : c.pos ≤ f.position := by
  induction h with
  | operand => exact Int.le_refl _
  | @negation c f _ _ ih =>
      change c.pos + 1 ≤ f.position at ih
      show c.pos ≤ f.position
      omega
  | @unclosed c c₁ e _ hrun _ =>
      have ho := orderly_expr (ample (c.advance 1)) (c.advance 1)
      change unlimited expr (c.advance 1) = _ at hrun
      rw [unlimited] at hrun
      rw [hrun] at ho
      obtain ⟨-, hlt, -⟩ := ho
      change c.pos + 1 < c₁.pos at hlt
      show c.pos ≤ c₁.pos
      omega
  | @group c f _ _ _ ih =>
      change c.pos + 1 ≤ f.position at ih
      show c.pos ≤ f.position
      omega

end FactorFails

/-! ## A factor fails in no other way -/

theorem literal_of_not_startsWith {α : Type} {text : String} (h : c.startsWith text = false)
    (value : α) :
    literal text value c = .failed { expected := [quotedLabel text], position := c.pos } :=
  if_neg (by rw [h]; exact Bool.false_ne_true)

/-- What has an answer has been paid for. -/
theorem of_paying {cost : Nat} {p : Nat → Parser Expr} {o : Outcome Expr}
    (h : paying cost p a c = o) (ho : o ≠ .aborted .nestedTooDeeply) :
    cost ≤ a ∧ p (a - cost) c = o := by
  rw [paying] at h
  by_cases ha : cost ≤ a
  · rw [if_pos ha] at h
    exact ⟨ha, h⟩
  · rw [if_neg ha] at h
    exact absurd h.symm ho

theorem negationOf_of_not_bang (h : c.startsWith "!" = false) (p : Parser Expr) :
    negationOf p c = .failed { expected := ["\"!\""], position := c.pos } :=
  bind_of_failed (literal_of_not_startsWith h "!") _

/-- With a sign, it is its operand, read behind the sign and committed. -/
theorem negationOf_of_bang (h : c.startsWith "!" = true) (p : Parser Expr) :
    negationOf p c = ((p (c.advance 1)).mapFailure Failure.commit).map Expr.not :=
  bind_of_parsed (literal_of_startsWith h "!") _

theorem groupOf_of_not_opening (h : c.startsWith "(" = false) (p : Parser Expr) :
    groupOf p c = .failed { expected := ["\"(\""], position := c.pos } :=
  bind_of_failed (literal_of_not_startsWith h "(") _

/-- Behind an opening parenthesis, a group is what is inside and then a closing
    one. -/
theorem groupOf_of_opening (h : c.startsWith "(" = true) (p : Parser Expr) :
    groupOf p c = p.followedBy closing (c.advance 1) :=
  bind_of_parsed (literal_of_startsWith h "(") _

/-- A group fails because of what is in it or because it is not closed. -/
theorem of_followedBy_failed (h : p.followedBy closing c = .failed f) :
    p c = .failed f ∨ ∃ e c₁, p c = .parsed e c₁ ∧ c₁.startsWith ")" = false ∧
      f = { expected := ["\")\""], position := c₁.pos } := by
  cases hp : p c with
  | parsed e c₁ =>
      refine Or.inr ⟨e, c₁, rfl, ?_⟩
      rw [followedBy, bind_of_parsed hp] at h
      cases hs : c₁.startsWith ")" with
      | true =>
          have hclose : closing c₁ = .parsed ")" (c₁.advance 1) := literal_of_startsWith hs ")"
          rw [bind_of_parsed hclose] at h
          cases h
      | false =>
          have hclose : closing c₁ = .failed { expected := ["\")\""], position := c₁.pos } :=
            literal_of_not_startsWith hs ")"
          rw [bind_of_failed hclose] at h
          cases h
          exact ⟨rfl, rfl⟩
  | failed f₁ =>
      rw [followedBy, bind_of_failed hp] at h
      cases h
      exact Or.inl rfl
  | aborted fault =>
      rw [followedBy, bind_of_aborted hp] at h
      cases h

/-- Where neither word stands, a constant asks for a boolean. -/
theorem constant_of_no_word (ht : c.startsWith "true" = false) (hf : c.startsWith "false" = false) :
    constant c = .failed { expected := ["boolean"], position := c.pos } := by
  rw [constant, Parser.map, Parser.label, choice, tryAll, trueWord, falseWord,
    literal_of_not_startsWith ht]
  simp only [tryAll, literal_of_not_startsWith hf]
  rfl

/-- A factor at which no sign of negation stands fails with what its group
    lacks. -/
theorem factorOf_of_failed {missing : Failure}
    (hn : p c = .failed { expected := ["\"!\""], position := c.pos })
    (hg : q c = .failed missing) (hc : missing.committed = false)
    (hword : constant c = .failed { expected := ["boolean"], position := c.pos })
    (hpos : c.pos ≤ missing.position) (hbang : missing.describe ≠ "\"!\"")
    (hboolean : missing.describe ≠ "boolean") :
    factorOf p q c = .failed (.ofFactor c.pos missing.describe missing.position) := by
  have hchoice : choice [p, q, constant] c = .failed (Failure.merge
      { expected := ["\"!\""], position := c.pos }
      [missing, { expected := ["boolean"], position := c.pos }]) := by
    rw [choice, tryAll, hn]
    simp only [tryAll, hg, hc, hword]
    rfl
  rw [factorOf, Parser.rule, hchoice, Failure.merge_alternatives hpos hbang hboolean]
  rfl

/-- What the group lacks may be a single sign. -/
theorem factorOf_of_missing {text : String} {position : Int}
    (hn : p c = .failed { expected := ["\"!\""], position := c.pos })
    (hg : q c = .failed { expected := [text], position })
    (hword : constant c = .failed { expected := ["boolean"], position := c.pos })
    (hpos : c.pos ≤ position) (hbang : text ≠ "\"!\"") (hboolean : text ≠ "boolean") :
    factorOf p q c = .failed (.ofFactor c.pos text position) := by
  have htext := Failure.describe_of_no_frames text position
  rw [← htext] at hbang hboolean
  rw [factorOf_of_failed hn hg rfl hword hpos hbang hboolean, htext]

/-- A factor behind a sign of negation fails as its operand does. -/
theorem of_factorOf_failed_of_bang (h : c.startsWith "!" = true)
    (hf : factorOf (negationOf p) q c = .failed f) :
    ∃ g, p (c.advance 1) = .failed g ∧ f = g.release.within "factor" c.pos := by
  rw [factorOf, Parser.rule, choice, tryAll, negationOf_of_bang h] at hf
  cases hp : p (c.advance 1) with
  | parsed e c₁ => rw [hp] at hf; cases hf
  | failed g =>
      rw [hp] at hf
      cases hf
      exact ⟨g, rfl, rfl⟩
  | aborted fault => rw [hp] at hf; cases hf

/-- A chain with its frame fails as its first operand does. -/
theorem rule_chain_failed {name : String} {op : Operator} (ho : p.Orderly)
    (h : Parser.rule name (chain op p) c = .failed f) :
    ∃ g, p c = .failed g ∧ f = g.within name c.pos := by
  cases hp : p c with
  | parsed x c₁ =>
      -- behind an operand there is only the loop, which does not fail
      rw [rule_chain_of_parsed ho hp] at h
      rcases goOn_cases op ho x c₁ with ⟨e, c₂, hrun, -⟩ | hrun <;> rw [hrun] at h <;> cases h
  | failed g =>
      rw [Parser.rule, chain, bind_of_failed hp] at h
      cases h
      exact ⟨g, rfl, rfl⟩
  | aborted fault =>
      rw [Parser.rule, chain, bind_of_aborted hp] at h
      cases h

/-- A term fails as its first factor does, with one frame more. -/
theorem term_failed (h : term a c = .failed f) :
    ∃ g, factor a c = .failed g ∧ f = g.within "term" c.pos := by
  rw [term, termOf_eq] at h
  exact rule_chain_failed (orderly_factor a) h

/-- An expression fails as its first factor does, with two frames more. -/
theorem expr_failed (h : expr a c = .failed f) :
    ∃ g, factor a c = .failed g ∧ f = g.ofExpr c.pos := by
  rw [expr, exprOf_eq] at h
  obtain ⟨f₁, hterm, rfl⟩ := rule_chain_failed (orderly_term a) h
  obtain ⟨g, hg, rfl⟩ := term_failed hterm
  exact ⟨g, hg, rfl⟩

/-- An answer of the expression rule is its answer without a limit. -/
theorem unlimited_of_expr {o : Outcome Expr} (h : expr a c = o)
    (ho : o ≠ .aborted .nestedTooDeeply) : unlimited expr c = o := by
  rcases aborted_or_unlimited .expr a c with hab | heq
  · exact absurd (h.symm.trans hab) ho
  · exact heq.symm.trans h

/-- A factor at which nothing opens fails for want of an operand. -/
theorem operand_fails (hbang : c.startsWith "!" = false) (hopen : c.startsWith "(" = false)
    (h : factor a c = .failed f) : FactorFails c f := by
  have hn : negation a c = .failed { expected := ["\"!\""], position := c.pos } :=
    negationOf_of_not_bang hbang _
  have hg : group a c = .failed { expected := ["\"(\""], position := c.pos } :=
    groupOf_of_not_opening hopen _
  have hword : ∀ {lead : String} {e : Expr} {n : Int}, c.startsWith lead = true →
      constant c = .parsed e (c.advance n) → False := by
    intro lead e n _ hc
    rw [factor_eq, factorOf_of_constant ⟨_, hn, rfl⟩ ⟨_, hg, rfl⟩ hc] at h
    cases h
  cases ht : c.startsWith "true" with
  | true => exact (hword ht (constant_of_trueWord ht)).elim
  | false =>
      cases hf : c.startsWith "false" with
      | true => exact (hword hf (constant_of_falseWord ht hf)).elim
      | false =>
          rw [factor_eq, factorOf_of_missing hn hg (constant_of_no_word ht hf) (Int.le_refl _)
            (by decide) (by decide)] at h
          cases h
          exact .operand hbang hopen ht hf

/-- A factor at which a group stands fails as the group does. -/
theorem group_fails (hopen : c.startsWith "(" = true)
    (ih : groupCost ≤ a → ∀ g, factor (a - groupCost) (c.advance 1) = .failed g →
      FactorFails (c.advance 1) g)
    (h : factor a c = .failed f) : FactorFails c f := by
  have hbang : c.startsWith "!" = false := Cursor.startsWith_eq_false hopen rfl rfl (by decide)
  have hn : negation a c = .failed { expected := ["\"!\""], position := c.pos } :=
    negationOf_of_not_bang hbang _
  have hword : constant c = .failed { expected := ["boolean"], position := c.pos } :=
    constant_of_no_word (Cursor.startsWith_eq_false hopen rfl rfl (by decide))
      (Cursor.startsWith_eq_false hopen rfl rfl (by decide))
  have hgroup : group a c = (paying groupCost expr a).followedBy closing (c.advance 1) :=
    groupOf_of_opening hopen _
  cases hg : group a c with
  | parsed e c₁ =>
      rw [factor_eq, factorOf_of_group ⟨_, hn, rfl⟩ hg] at h
      cases h
  | aborted fault =>
      rw [factor_eq, factorOf, Parser.rule, choice, tryAll, hn] at h
      simp only [tryAll, hg] at h
      cases h
  | failed missing =>
      rcases of_followedBy_failed (hgroup.symm.trans hg) with hin | ⟨e, c₁, hin, hclose, rfl⟩
      · obtain ⟨ha, hin⟩ := of_paying hin (Outcome.failed_ne_aborted _ _)
        obtain ⟨g, hfactor, rfl⟩ := expr_failed hin
        have hfails := ih ha g hfactor
        have hlong : 18 ≤ (g.ofExpr (c.advance 1).pos).describe.length :=
          Failure.length_describe (by simp [Failure.ofExpr, Failure.within])
        have hpos : c.pos ≤ g.position := by
          have hle := hfails.pos_le
          change c.pos + 1 ≤ g.position at hle
          omega
        rw [factor_eq, factorOf_of_failed hn hg hfails.committed_eq hword hpos
          (fun heq => by rw [heq] at hlong; revert hlong; decide)
          (fun heq => by rw [heq] at hlong; revert hlong; decide)] at h
        cases h
        exact .group hopen (unlimited_of_expr hin (Outcome.failed_ne_aborted _ _)) hfails
      · obtain ⟨-, hin⟩ := of_paying hin (Outcome.parsed_ne_aborted _ _ _)
        have hrun := unlimited_of_expr hin (Outcome.parsed_ne_aborted _ _ _)
        have hfails : FactorFails c (.ofFactor c.pos "\")\"" c₁.pos) := .unclosed hopen hrun hclose
        rw [factor_eq, factorOf_of_missing hn hg hword hfails.pos_le (by decide) (by decide)] at h
        cases h
        exact hfails

/-- Every failure of a factor is one of those. -/
theorem factor_fails : ∀ {a : Nat} {c : Cursor} {f : Failure},
    factor a c = .failed f → FactorFails c f := by
  intro a
  induction a using Nat.strongRecOn with
  | ind a ih =>
      intro c f h
      cases hbang : c.startsWith "!" with
      | true =>
          have hf := h
          rw [factor_eq] at hf
          obtain ⟨g, hg, rfl⟩ := of_factorOf_failed_of_bang hbang hf
          obtain ⟨ha, hg⟩ := of_paying hg (Outcome.failed_ne_aborted _ _)
          have hfails := ih _ (Nat.sub_lt_of_pos_le (by decide) ha) hg
          have hplain : g.release = g := by
            rw [Failure.release, ← hfails.committed_eq]
          rw [hplain]
          exact .negation hbang hfails
      | false =>
          cases hopen : c.startsWith "(" with
          | true =>
              exact group_fails hopen
                (fun ha g hg => ih _ (Nat.sub_lt_of_pos_le (by decide) ha) hg) h
          | false => exact operand_fails hbang hopen h

end Grammar

/-! ## The signs at the front, taken together -/

namespace Cursor

variable {c : Cursor}

/-- How many signs of negation stand in a row at a cursor. -/
def bangs (c : Cursor) : Nat := (c.left.takeWhile fun x => x = '!').length

/-- The cursor behind them. -/
def pastBangs (c : Cursor) : Cursor := c.advance c.bangs

/-- A sign is one more than those behind it. -/
theorem bangs_of_bang (hc : c.Inside) (h : c.startsWith "!" = true) :
    c.bangs = (c.advance 1).bangs + 1 := by
  have hleft : c.left = '!' :: (c.advance 1).left := ((startsWith_iff_spans hc "!").mp h).left
  rw [bangs, bangs, hleft, List.takeWhile_cons_of_pos (by decide)]
  rfl

/-- The place behind all signs is the same seen from each of them. -/
theorem pastBangs_of_bang (hc : c.Inside) (h : c.startsWith "!" = true) :
    c.pastBangs = (c.advance 1).pastBangs := by
  rw [pastBangs, pastBangs, bangs_of_bang hc h]
  simp only [advance, Int.natCast_add, Int.natCast_one, Int.add_assoc, Int.add_comm 1]

theorem bangs_of_not_bang (hc : c.Inside) (h : c.startsWith "!" = false) : c.bangs = 0 := by
  rw [bangs]
  cases hleft : c.left with
  | nil => rfl
  | cons x rest =>
      by_cases hx : x = '!'
      · subst hx
        have hs : c.startsWith "!" = true := (startsWith_iff c "!").mpr ⟨hc.2, rest, hleft.symm⟩
        rw [h] at hs
        cases hs
      · rw [List.takeWhile_cons_of_neg (by simpa using hx)]
        rfl

theorem pastBangs_of_not_bang (hc : c.Inside) (h : c.startsWith "!" = false) : c.pastBangs = c := by
  rw [pastBangs, bangs_of_not_bang hc h]
  simp [advance]

end Cursor

namespace Grammar

variable {a : Nat} {c : Cursor} {f g : Failure}

/-- What is missing, and where, for a group to stand at a cursor: its opening
    parenthesis, something inside it, or its closing parenthesis. -/
inductive Missing (q : Cursor) : String → Int → Prop where
  | opening : q.startsWith "(" = false → Missing q "\"(\"" q.pos
  | closing {e : Expr} {c₁ : Cursor} : q.startsWith "(" = true →
      unlimited expr (q.advance 1) = .parsed e c₁ → c₁.startsWith ")" = false →
      Missing q "\")\"" c₁.pos
  | inner {g : Failure} : q.startsWith "(" = true → unlimited expr (q.advance 1) = .failed g →
      Missing q g.describe g.position

/-- The frames of the factors that begin with the signs at a cursor or right
    behind them, innermost first. -/
def factorFrames (c : Cursor) : List Frame :=
  (List.range (c.bangs + 1)).map fun i : Nat => ⟨"factor", c.pastBangs.pos - i⟩

/-- Every sign adds the frame of its factor around those behind it. -/
theorem factorFrames_of_bang (hc : c.Inside) (h : c.startsWith "!" = true) :
    factorFrames c = factorFrames (c.advance 1) ++ [⟨"factor", c.pos⟩] := by
  have hpos : c.pastBangs.pos - ((c.advance 1).bangs + 1 : Nat) = c.pos := by
    rw [← Cursor.bangs_of_bang hc h]
    show c.pos + c.bangs - c.bangs = c.pos
    omega
  rw [factorFrames, factorFrames, Cursor.bangs_of_bang hc h, List.range_succ, List.map_append,
    List.map_singleton, hpos, Cursor.pastBangs_of_bang hc h]

theorem factorFrames_of_not_bang (hc : c.Inside) (h : c.startsWith "!" = false) :
    factorFrames c = [⟨"factor", c.pos⟩] := by
  rw [factorFrames, Cursor.bangs_of_not_bang hc h, Cursor.pastBangs_of_not_bang hc h]
  simp

/-- A failed factor tells of all signs before it, and of what is missing
    behind them. -/
theorem FactorFails.shape (h : FactorFails c f) (hc : c.Inside) :
    f.frames = factorFrames c ∧ ∃ missing,
      f.expected = ["\"!\"", missing, "boolean"] ∧ Missing c.pastBangs missing f.position := by
  induction h with
  | @operand c hbang hopen =>
      rw [factorFrames_of_not_bang hc hbang, Cursor.pastBangs_of_not_bang hc hbang]
      exact ⟨rfl, _, rfl, .opening hopen⟩
  | @negation c f hbang _ ih =>
      have hnext := ((Cursor.startsWith_iff_spans hc "!").mp hbang).inside_next
      obtain ⟨hframes, missing, hexp, hmissing⟩ := ih hnext
      rw [factorFrames_of_bang hc hbang, Cursor.pastBangs_of_bang hc hbang]
      exact ⟨congrArg (· ++ _) hframes, missing, hexp, hmissing⟩
  | @unclosed c c₁ e hopen hrun hclose =>
      have hbang : c.startsWith "!" = false :=
        Cursor.startsWith_eq_false hopen rfl rfl (by decide)
      rw [factorFrames_of_not_bang hc hbang, Cursor.pastBangs_of_not_bang hc hbang]
      exact ⟨rfl, _, rfl, .closing hopen hrun hclose⟩
  | @group c f hopen hrun _ _ =>
      have hbang : c.startsWith "!" = false :=
        Cursor.startsWith_eq_false hopen rfl rfl (by decide)
      rw [factorFrames_of_not_bang hc hbang, Cursor.pastBangs_of_not_bang hc hbang]
      exact ⟨rfl, _, rfl, .inner hopen hrun⟩

/-- FAILURE SHAPE: an expression that fails inside a text, with any allowance,
    fails uncommitted and with nothing left over.  Its frames are the factors
    of the signs of negation in front, from the last to the first, the term
    and the expression.  Its three expectations are the sign, what is missing
    for a group behind the signs, and a truth value; and its position is where
    that is missing. -/
theorem failure_shape {a : Nat} {c : Cursor} {f : Failure} (hc : c.Inside)
    (h : expr a c = .failed f) :
    f.committed = false ∧ f.remainder = none ∧
      f.frames = (List.range (c.bangs + 1)).map (fun i : Nat => ⟨"factor", c.pastBangs.pos - i⟩) ++
        [⟨"term", c.pos⟩, ⟨"expr", c.pos⟩] ∧
      ∃ missing, f.expected = ["\"!\"", missing, "boolean"] ∧
        Missing c.pastBangs missing f.position := by
  obtain ⟨g, hfactor, rfl⟩ := expr_failed h
  have hfails := factor_fails hfactor
  obtain ⟨hframes, missing, hexp, hmissing⟩ := hfails.shape hc
  refine ⟨hfails.committed_eq, hfails.remainder_eq, ?_, missing, hexp, hmissing⟩
  show (g.frames ++ [⟨"term", c.pos⟩]) ++ [⟨"expr", c.pos⟩] = _
  rw [hframes, List.append_assoc]
  rfl

/-- Two signs stand before a group that is wrong inside. -/
theorem failure_shape_nested :
    let c : Cursor := { Cursor.ofString "true||!!(1)" with pos := 6 }
    let words := "\"!\" or \"(\" or boolean while processing factor, followed by term, " ++
      "followed by expr"
    let f : Failure :=
      { expected := ["\"!\"", words, "boolean"]
        position := 9
        frames := [⟨"factor", 8⟩, ⟨"factor", 7⟩, ⟨"factor", 6⟩, ⟨"term", 6⟩, ⟨"expr", 6⟩] }
    c.Inside ∧ unlimited expr c = .failed f ∧ c.bangs = 2 ∧
      ∃ missing, f.expected = ["\"!\"", missing, "boolean"] ∧ Missing c.pastBangs missing 9 := by
  have hc : Cursor.Inside { Cursor.ofString "true||!!(1)" with pos := 6 } := by
    constructor <;> decide
  exact ⟨hc, rfl, rfl, (failure_shape hc (a := 50) rfl).2.2.2⟩

end Grammar

end TruthExpr
