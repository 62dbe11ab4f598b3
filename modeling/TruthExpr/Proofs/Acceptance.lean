import TruthExpr.Proofs.Descent

/-! # Acceptance — the descent reads a text exactly when it is a sentence

    The two directions of the descent, taken over a whole text:

    * a text that is read is derived by the grammar with the tree it is read
      as, and the cursor has come to its end (`derives_of_parse`);
    * a derived text is read, because its own length pays for its nesting: a
      pair of parentheses adds 12 to the allowance and costs 10, a sign of
      negation adds 6 and costs 4 (`expr_of_sentence`).

    Since reading is a function, a text has one tree at most
    (`Derives.unique`). -/

namespace TruthExpr

namespace Reading

open Grammar

variable {text : String} {e : Expr} {c : Cursor}

/-- The text nests deeper than its allowance. -/
def OutOfDepth (text : String) : Prop :=
  expr (allowance text.length) (Cursor.ofString text) = .aborted .nestedTooDeeply

/-- The end of a text, as a cursor. -/
def endOf (text : String) : Cursor := { text := text.toList.toArray, pos := text.length }

theorem endOf_eq (text : String) : (Cursor.ofString text).advance text.length = endOf text := by
  simp [endOf, Cursor.advance, Cursor.ofString]

/-- From the start to the end stands the whole text, and nothing is left. -/
theorem spans_endOf (text : String) :
    (Cursor.ofString text).Spans text.toList (endOf text) ∧ (endOf text).left = [] := by
  rw [← endOf_eq]
  exact Cursor.spans_ofString text

/-- The allowance of a text covers every part of it. -/
theorem allowance_covers {s : List Char} (h : s.length ≤ text.length) :
    allowancePerChar * s.length ≤ allowance text.length := by
  unfold allowance allowancePerChar
  omega

/-- A sentence is read to its end by the expression rule. -/
theorem expr_of_sentence (h : Derives .expr text.toList e) :
    expr (allowance text.length) (Cursor.ofString text) = .parsed e (endOf text) := by
  obtain ⟨hs, hleft⟩ := spans_endOf text
  exact expr_of_derives h hs (allowance_covers (Nat.le_of_eq String.length_toList))
    (Cursor.startsWith_of_left_nil hleft rfl) (Cursor.startsWith_of_left_nil hleft rfl)

theorem not_outOfDepth_of_sentence (h : Sentence text.toList) : ¬ OutOfDepth text := by
  intro hdeep
  obtain ⟨e, he⟩ := h
  exact nomatch (expr_of_sentence he).symm.trans hdeep

/-- What is derived is parsed to the tree it is derived for. -/
theorem parse_of_derives (h : Derives .expr text.toList e) : parse text = .ok (e, endOf text) := by
  obtain ⟨hs, hleft⟩ := spans_endOf text
  rw [parse, expr_of_sentence h]
  exact if_pos ((Cursor.atEnd_iff hs.inside_next).mpr hleft)

/-- A text that is read has been read by the expression rule to its end. -/
theorem expr_of_parse (h : parse text = .ok (e, c)) :
    expr (allowance text.length) (Cursor.ofString text) = .parsed e c ∧ c.atEnd = true := by
  unfold parse at h
  cases hrun : expr (allowance text.length) (Cursor.ofString text) with
  | parsed e₁ c₁ =>
      rw [hrun] at h
      dsimp only at h
      by_cases hend : c₁.atEnd = true
      · rw [if_pos hend] at h
        cases h
        exact ⟨rfl, hend⟩
      · rw [if_neg hend] at h
        cases h
  | failed f => rw [hrun] at h; cases h
  | aborted fault => rw [hrun] at h; cases h

theorem derives_of_parse (h : parse text = .ok (e, c)) :
    Derives .expr text.toList e ∧ c = endOf text := by
  obtain ⟨hrun, hend⟩ := expr_of_parse h
  obtain ⟨s, hs, hd⟩ := reads_expr _ (Cursor.inside_ofString text) hrun
  have hleft : c.left = [] := (Cursor.atEnd_iff hs.inside_next).mp hend
  -- nothing is left behind the match, so it is the whole text
  have htext : text.toList = s := by
    rw [← Cursor.left_ofString, hs.left, hleft, List.append_nil]
  subst htext
  exact ⟨hd, hs.next_eq (spans_endOf text).1 rfl⟩

theorem parse_ok_iff :
    parse text = .ok (e, c) ↔ Derives .expr text.toList e ∧ c = endOf text := by
  constructor
  · exact derives_of_parse
  · rintro ⟨h, rfl⟩
    exact parse_of_derives h

/-- The raising form accepts the same texts, with the same trees. -/
theorem readExpr_ok_iff : readExpr text = .ok e ↔ Derives .expr text.toList e := by
  unfold readExpr
  cases hp : parse text with
  | ok r =>
      obtain ⟨e₁, c₁⟩ := r
      obtain ⟨hd, rfl⟩ := derives_of_parse hp
      constructor
      · intro h
        cases h
        exact hd
      · intro h
        rw [parse_of_derives h] at hp
        cases hp
        rfl
  | error f =>
      constructor
      · intro h
        cases h
      · intro h
        rw [parse_of_derives h] at hp
        cases hp

/-- A text is answered with a failure for one of three reasons: the expression
    rule has failed, something is left over, or the allowance is spent.  It is
    never given up for a fault of the grammar itself. -/
theorem parse_error_cases {f : Failure} (h : parse text = .error f) :
    (expr (allowance text.length) (Cursor.ofString text) = .failed f ∧ f.remainder = none) ∨
    (∃ e c, expr (allowance text.length) (Cursor.ofString text) = .parsed e c ∧
      f = Failure.trailing c.rest c.pos) ∨
    (OutOfDepth text ∧ f = ofFault .nestedTooDeeply) := by
  have ho := orderly_expr (allowance text.length) (Cursor.ofString text)
  rw [parse] at h
  cases hrun : expr (allowance text.length) (Cursor.ofString text) with
  | parsed e c =>
      rw [hrun] at h
      dsimp only at h
      by_cases hend : c.atEnd = true
      · rw [if_pos hend] at h
        cases h
      · rw [if_neg hend] at h
        cases h
        exact Or.inr (Or.inl ⟨e, c, rfl, rfl⟩)
  | failed g =>
      rw [hrun] at h ho
      cases h
      exact Or.inl ⟨rfl, ho⟩
  | aborted fault =>
      rw [hrun] at h ho
      have hfault : fault = .nestedTooDeeply := ho
      subst hfault
      cases h
      exact Or.inr (Or.inr ⟨hrun, rfl⟩)

/-- The same three reasons, as the refusals that they are told as. -/
theorem refusal_cases {x : ReadError} (h : readExpr text = .error x) :
    (∃ f, expr (allowance text.length) (Cursor.ofString text) = .failed f ∧
      x = ⟨.malformed (some f), f.message, f.position⟩) ∨
    (∃ e c, expr (allowance text.length) (Cursor.ofString text) = .parsed e c ∧
      x = ⟨.trailing c.rest, "could not parse " ++ c.rest, c.pos⟩) ∨
    (OutOfDepth text ∧ x = (ofFault .nestedTooDeeply).toError) := by
  rw [readExpr] at h
  cases hp : parse text with
  | ok r => rw [hp] at h; cases h
  | error f =>
      rw [hp] at h
      cases h
      rcases parse_error_cases hp with ⟨hrun, hplain⟩ | ⟨e, c, hrun, rfl⟩ | ⟨hdeep, rfl⟩
      · refine Or.inl ⟨f, hrun, ?_⟩
        rw [Failure.toError, hplain]
      · exact Or.inr (Or.inl ⟨e, c, hrun, rfl⟩)
      · exact Or.inr (Or.inr ⟨hdeep, rfl⟩)

end Reading

open Reading in
/-- A text has one tree at most. -/
theorem Derives.unique {s : List Char} {e e₁ : Expr} (h : Derives .expr s e)
    (h₁ : Derives .expr s e₁) : e = e₁ := by
  rw [← String.toList_ofList (l := s)] at h h₁
  have hok := (parse_of_derives h).symm.trans (parse_of_derives h₁)
  cases hok
  rfl

namespace Reading

/-- EXACT ACCEPTANCE: a text is read as `e`, with the cursor at its end,
    exactly when the grammar derives it with the tree `e`; it has no other
    tree; and if it has one it is never refused for its depth. -/
theorem parse_exact (text : String) :
    (∀ e c, parse text = .ok (e, c) ↔
      Derives .expr text.toList e ∧ c = { text := text.toList.toArray, pos := text.length }) ∧
    (∀ e e₁, Derives .expr text.toList e → Derives .expr text.toList e₁ → e = e₁) ∧
    (Sentence text.toList →
      ¬ OutOfDepth text ∧ parse text ≠ .error (ofFault .nestedTooDeeply)) := by
  refine ⟨fun e c => parse_ok_iff, fun e e₁ h h₁ => h.unique h₁, ?_⟩
  intro h
  refine ⟨not_outOfDepth_of_sentence h, ?_⟩
  obtain ⟨e, he⟩ := h
  rw [parse_of_derives he]
  exact fun h => nomatch h

end Reading

end TruthExpr
