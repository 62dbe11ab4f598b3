import TruthExpr.Proofs.Nesting

/-! # Look-ahead — how much of what follows a match matters to it

    The loop of a chain tries more than it takes: it reads on behind an
    operator and gives everything back if no operand is found there.  None of
    that shows.  What a rule has read it reads again wherever the same
    characters stand, as long as no operator that the rule takes follows them
    (`reads_again`):

    * nothing that follows matters to a factor;
    * a term only needs that no `&&` follows;
    * an expression only needs that neither operator follows. -/

namespace TruthExpr

/-- The operators with which a rule goes on, wherever they stand. -/
def Level.signs : Level → List Operator
  | .factor => []
  | .term => [.and]
  | .expr => [.and, .or]

namespace Grammar

open Reading

variable {level : Level} {s : List Char} {e : Expr} {c c₁ : Cursor}

/-- A text that a rule derives is read by it where none of its operators
    follows. -/
theorem ruleAt_of_derives {a : Nat} (h : Derives level s e) (hs : c.Spans s c₁)
    (ha : allowancePerChar * s.length ≤ a)
    (hsigns : ∀ op ∈ level.signs, c₁.startsWith op.symbol = false) :
    ruleAt level a c = .parsed e c₁ := by
  cases level with
  | factor => exact h.runs hs ha
  | term =>
      have hrun : term a c = goOn .and (factor a) e c₁ := h.runs hs ha
      exact hrun.trans (goOn_of_not_startsWith (orderly_factor a) (hsigns .and (by decide)) e)
  | expr => exact expr_of_derives h hs ha (hsigns .and (by decide)) (hsigns .or (by decide))

/-- What a rule has read in one place it reads wherever the same characters
    stand and none of its operators follows. -/
theorem reads_again {a : Nat} (hc : c.Inside) (h : ruleAt level a c = .parsed e c₁) :
    ∃ s, c.Spans s c₁ ∧ ∀ {b : Nat} {d d₁ : Cursor}, d.Spans s d₁ →
      allowancePerChar * s.length ≤ b → (∀ op ∈ level.signs, d₁.startsWith op.symbol = false) →
      ruleAt level b d = .parsed e d₁ := by
  obtain ⟨s, hs, hd⟩ := reads_ruleAt level a hc h
  exact ⟨s, hs, fun hspans hb hsigns => ruleAt_of_derives hd hspans hb hsigns⟩

/-- An ample allowance covers whatever a text begins with. -/
theorem ample_covers {w : String} (h : s.length ≤ w.toList.length) :
    allowancePerChar * s.length ≤ ample (Cursor.ofString w) := by
  have hdistance : (Cursor.ofString w).distance = w.toList.length := by
    simp [Cursor.distance, Cursor.ofString]
  rw [ample, hdistance]
  simp only [allowancePerChar, groupCost]
  omega

/-- A rule that has read the beginning of a text reads it from every text that
    begins alike, unless one of its operators follows there. -/
theorem reads_beginning (level : Level) {u : String}
    (h : unlimited (ruleAt level) (Cursor.ofString u) = .parsed e c) :
    ∃ n : Nat, c = { Cursor.ofString u with pos := n } ∧ n ≤ u.length ∧
      ∀ w : String, w.toList.take n = u.toList.take n →
        (∀ op ∈ level.signs, ¬ op.symbol.toList <+: w.toList.drop n) →
        unlimited (ruleAt level) (Cursor.ofString w) =
          .parsed e { Cursor.ofString w with pos := n } := by
  obtain ⟨s, hs, hagain⟩ := reads_again (Cursor.inside_ofString u) h
  have hu : u.toList = s ++ c.left := by rw [← Cursor.left_ofString, hs.left]
  have hplace : ∀ t : String, (Cursor.ofString t).advance s.length =
      { Cursor.ofString t with pos := s.length } := by
    intro t
    simp [Cursor.advance, Cursor.ofString]
  refine ⟨s.length, hs.next.trans (hplace u), ?_, ?_⟩
  · rw [← String.length_toList, hu, List.length_append]
    omega
  · intro w hsame hsigns
    -- `w` begins with the same match, so a cursor passes it there as well
    have hw : s ++ w.toList.drop s.length = w.toList := by
      have hcut := List.take_append_drop s.length w.toList
      rw [hsame, hu, List.take_left] at hcut
      exact hcut
    obtain ⟨hspans, hleft⟩ := (Cursor.inside_ofString w).spans (s := s)
      (r := w.toList.drop s.length) ((Cursor.left_ofString w).trans hw.symm)
    rw [hplace] at hspans hleft
    refine hagain hspans (ample_covers ?_) ?_
    · rw [← hw, List.length_append]
      omega
    · intro op hop
      rw [Bool.eq_false_iff]
      intro hstarts
      have hpre := ((Cursor.startsWith_iff _ op.symbol).mp hstarts).2
      rw [hleft] at hpre
      exact hsigns op hop hpre

/-- BOUNDED LOOK-AHEAD: a factor, a term or an expression that is read at the
    beginning of a text ends inside the text, and is read with the same tree
    and the same end from every text that shares this beginning: a factor
    whatever follows, a term if no `&&` follows, and an expression if neither
    operator does. -/
theorem lookahead_bounded (u : String) (v : Expr) (c : Cursor) :
    (unlimited factor (Cursor.ofString u) = .parsed v c →
      ∃ n : Nat, c = { Cursor.ofString u with pos := n } ∧ n ≤ u.length ∧
        ∀ w : String, w.toList.take n = u.toList.take n →
          unlimited factor (Cursor.ofString w) = .parsed v { Cursor.ofString w with pos := n }) ∧
    (unlimited term (Cursor.ofString u) = .parsed v c →
      ∃ n : Nat, c = { Cursor.ofString u with pos := n } ∧ n ≤ u.length ∧
        ∀ w : String, w.toList.take n = u.toList.take n → ¬ "&&".toList <+: w.toList.drop n →
          unlimited term (Cursor.ofString w) = .parsed v { Cursor.ofString w with pos := n }) ∧
    (unlimited expr (Cursor.ofString u) = .parsed v c →
      ∃ n : Nat, c = { Cursor.ofString u with pos := n } ∧ n ≤ u.length ∧
        ∀ w : String, w.toList.take n = u.toList.take n → ¬ "&&".toList <+: w.toList.drop n →
          ¬ "||".toList <+: w.toList.drop n →
          unlimited expr (Cursor.ofString w) = .parsed v { Cursor.ofString w with pos := n }) := by
  refine ⟨?_, ?_, ?_⟩
  · intro h
    obtain ⟨n, hc, hn, hsame⟩ := reads_beginning .factor h
    exact ⟨n, hc, hn, fun w hw => hsame w hw fun op hop => nomatch hop⟩
  · intro h
    obtain ⟨n, hc, hn, hsame⟩ := reads_beginning .term h
    exact ⟨n, hc, hn, fun w hw hand => hsame w hw (List.forall_mem_singleton.mpr hand)⟩
  · intro h
    obtain ⟨n, hc, hn, hsame⟩ := reads_beginning .expr h
    refine ⟨n, hc, hn, fun w hw hand hor => hsame w hw ?_⟩
    exact List.forall_mem_cons.mpr ⟨hand, List.forall_mem_singleton.mpr hor⟩

/-- The operand behind `&&` is missing, so a term ends before the sign; with
    the operand there it goes on. -/
example :
    unlimited term (Cursor.ofString "!true&&") =
      .parsed (.not (.literal true)) { Cursor.ofString "!true&&" with pos := 5 } ∧
    unlimited term (Cursor.ofString "!true&&false") =
      .parsed (.and (.not (.literal true)) (.literal false))
        { Cursor.ofString "!true&&false" with pos := 12 } :=
  ⟨rfl, rfl⟩

end Grammar

end TruthExpr
