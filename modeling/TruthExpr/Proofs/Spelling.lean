import TruthExpr.Proofs.TokenMachine

/-! # Spelling — a text falls into whole tokens in one way at most

    No token is a beginning of another.  So what two rows of tokens spell can
    only agree if the rows do, from the front on (`spell_prefix`), and a
    character that is a token by itself is one wherever it stands in a
    spelled text (`opening_of_spell`). -/

namespace TruthExpr

theorem spell_nil : spell [] = [] := rfl

namespace Token

theorem text_ne_nil (t : Token) : t.text.toList ≠ [] := by
  cases t <;> exact fun h => nomatch h

/-- Two tokens at the beginning of one text are the same. -/
theorem eq_of_append {t u : Token} {r v : List Char}
    (h : t.text.toList ++ r = u.text.toList ++ v) : t = u ∧ r = v := by
  have hscan : (Scan.ofChars 0 (t.text.toList ++ r)).lexemes.head? =
      (Scan.ofChars 0 (u.text.toList ++ v)).lexemes.head? := by rw [h]
  rw [Scan.ofChars_token, Scan.ofChars_token] at hscan
  have htoken : t = u := congrArg Lexeme.token (Option.some.inj hscan)
  subst htoken
  exact ⟨rfl, List.append_cancel_left h⟩

/-- The opening parenthesis stands in no other token. -/
theorem eq_opening_of_mem {t : Token} (h : '(' ∈ t.text.toList) : t = .opening := by
  revert h
  cases t <;> decide

end Token

theorem spell_eq_nil_iff {ts : List Token} : spell ts = [] ↔ ts = [] := by
  cases ts with
  | nil => exact ⟨fun _ => rfl, fun _ => rfl⟩
  | cons t ts =>
      rw [spell_cons]
      constructor
      · intro h
        exact absurd (List.append_eq_nil_iff.mp h).1 t.text_ne_nil
      · intro h
        cases h

/-- Tokens that spell the beginning of a spelled text are the first ones. -/
theorem spell_prefix {ts : List Token} : ∀ {us : List Token} {r : List Char},
    spell ts ++ r = spell us → ∃ vs, us = ts ++ vs ∧ r = spell vs := by
  induction ts with
  | nil => intro us r h; exact ⟨us, rfl, h⟩
  | cons t ts ih =>
      intro us r h
      rw [spell_cons, List.append_assoc] at h
      cases us with
      | nil => exact absurd (List.append_eq_nil_iff.mp h).1 t.text_ne_nil
      | cons u us =>
          obtain ⟨rfl, hrest⟩ := Token.eq_of_append h
          obtain ⟨vs, rfl, hr⟩ := ih hrest
          exact ⟨vs, rfl, hr⟩

theorem spell_injective {ts us : List Token} (h : spell ts = spell us) : ts = us := by
  rw [← List.append_nil (spell ts)] at h
  obtain ⟨vs, rfl, hr⟩ := spell_prefix h
  rw [spell_eq_nil_iff.mp hr.symm, List.append_nil]

/-- A parenthesis that opens in a spelled text stands between whole tokens. -/
theorem opening_of_spell {us : List Token} : ∀ {a r : List Char},
    spell us = a ++ '(' :: r →
      ∃ ts vs, us = ts ++ .opening :: vs ∧ a = spell ts ∧ r = spell vs := by
  induction us with
  | nil =>
      intro a r h
      exact absurd h.symm (by simp [spell_nil])
  | cons u us ih =>
      intro a r h
      rw [spell_cons] at h
      rcases List.append_eq_append_iff.mp h with ⟨a₁, rfl, hrest⟩ | ⟨w, hu, hrest⟩
      · obtain ⟨ts, vs, rfl, rfl, rfl⟩ := ih hrest
        exact ⟨u :: ts, vs, rfl, rfl, rfl⟩
      · cases w with
        | nil =>
            -- the first token ends right before the parenthesis
            obtain ⟨ts, vs, rfl, hnil, rfl⟩ := ih (a := []) hrest.symm
            rw [spell_eq_nil_iff.mp hnil.symm]
            refine ⟨[u], vs, rfl, ?_, rfl⟩
            rw [spell_singleton, hu, List.append_nil]
        | cons x w =>
            obtain ⟨rfl, hr⟩ := List.cons.inj hrest
            have hopen : u = .opening := Token.eq_opening_of_mem (by rw [hu]; simp)
            subst hopen
            cases a with
            | nil =>
                obtain rfl : w = [] := (List.cons.inj hu).2.symm
                exact ⟨[], us, rfl, rfl, hr⟩
            | cons y a =>
                have hlen := congrArg List.length hu
                simp [Token.text] at hlen

namespace Scan

/-- A text is empty, begins with a token, or begins with none. -/
theorem first_token (s : List Char) :
    s = [] ∨ (∃ (t : Token) (r : List Char), s = t.text.toList ++ r) ∨
      ∃ c r, s = c :: r ∧ (∀ position, ofChars position s = ⟨[], some (position, c)⟩) ∧
        ∀ t : Token, ¬ t.text.toList <+: s := by
  have hnone : ∀ {c r}, (∀ position, ofChars position (c :: r) = ⟨[], some (position, c)⟩) →
      ∀ t : Token, ¬ t.text.toList <+: c :: r := by
    rintro c r h t ⟨v, hv⟩
    have hscan := h 0
    rw [← hv, ofChars_token] at hscan
    cases hscan
  fun_cases ofChars 0 s with
  | case1 => exact Or.inl rfl
  | case2 rest => exact Or.inr (Or.inl ⟨.trueWord, rest, rfl⟩)
  | case3 rest => exact Or.inr (Or.inl ⟨.falseWord, rest, rfl⟩)
  | case4 rest => exact Or.inr (Or.inl ⟨.bang, rest, rfl⟩)
  | case5 rest => exact Or.inr (Or.inl ⟨.opening, rest, rfl⟩)
  | case6 rest => exact Or.inr (Or.inl ⟨.closing, rest, rfl⟩)
  | case7 rest => exact Or.inr (Or.inl ⟨.orSign, rest, rfl⟩)
  | case8 rest => exact Or.inr (Or.inl ⟨.andSign, rest, rfl⟩)
  | case9 c rest h1 h2 h3 h4 h5 h6 h7 =>
      have hstop : ∀ position, ofChars position (c :: rest) = ⟨[], some (position, c)⟩ := by
        intro position
        rw [ofChars] <;> assumption
      exact Or.inr (Or.inr ⟨c, rest, rfl, hstop, hnone hstop⟩)

end Scan

end TruthExpr
