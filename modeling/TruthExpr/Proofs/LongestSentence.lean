import TruthExpr.Proofs.Acceptance

/-! # Longest sentences — what a reading says about a text that is none

    The loop of a chain gives up an operator whose operand does not match,
    at every level on its own.  Together these local decisions find the
    LONGEST beginning of the text that is a sentence:

    * `reaches_of_derives` — where a sentence stands, the expression rule
      matches at least as far as it, or is given up for its depth;
    * `reading_cases` — so a text that is not too deep is a sentence, or is
      refused behind its longest sentence, or begins with none at all. -/

namespace TruthExpr

/-- The longest sentence that `s` begins with has `n` characters. -/
structure LongestSentence (s : List Char) (n : Nat) : Prop where
  within : n ≤ s.length
  sentence : Sentence (s.take n)
  longest : ∀ t, t <+: s → Sentence t → t.length ≤ n

namespace Grammar

open Reading

variable {a : Nat} {c c₁ c₂ : Cursor} {s : List Char} {e : Expr}

/-- The expression rule matches from `c` at least as far as `c₁`, or is given
    up for its depth. -/
def Reaches (a : Nat) (c c₁ : Cursor) : Prop :=
  (∃ e c₂, expr a c = .parsed e c₂ ∧ c₁.pos ≤ c₂.pos) ∨ expr a c = .aborted .nestedTooDeeply

/-- A loop that goes on from `c₁` takes the expression rule as far as that. -/
theorem reaches_of_goOn {x : Expr} (hrun : expr a c = goOn .or (term a) x c₂)
    (h : c₁.pos ≤ c₂.pos) : Reaches a c c₁ := by
  rcases goOn_cases .or (orderly_term a) x c₂ with ⟨e, c₃, ho, -, hpos, -⟩ | ho
  · exact Or.inl ⟨e, c₃, hrun.trans ho, by omega⟩
  · exact Or.inr (hrun.trans ho)

/-- A term at the beginning takes the expression rule as far as the term
    goes. -/
theorem reaches_of_term {x : Expr} (h : term a c = goOn .and (factor a) x c₁) :
    Reaches a c c₁ := by
  have hexpr : expr a c = Parser.rule "expr" (chain .or (term a)) c :=
    congrFun (exprOf_eq (term a)) c
  rcases goOn_cases .and (orderly_factor a) x c₁ with ⟨e, c₂, ho, -, hpos, -⟩ | ho
  · have hrun : expr a c = goOn .or (term a) e c₂ := by
      rw [hexpr]
      exact rule_chain_of_parsed (orderly_term a) (h.trans ho) "expr"
    exact reaches_of_goOn hrun hpos
  · refine Or.inr ?_
    rw [hexpr, Parser.rule, chain, Parser.bind_of_aborted (h.trans ho)]
    rfl

/-- A term behind an operator does the same for a chain that is under way. -/
theorem reaches_of_next_term {x y : Expr} (hrun : expr a c = goOn .or (term a) x c₁)
    (hs : c₁.Spans "||".toList c₂) {c₃ : Cursor} (h : term a c₂ = goOn .and (factor a) y c₃) :
    Reaches a c c₃ := by
  have hor : c₁.startsWith "||" = true := hs.startsWith
  have hnext : c₂ = c₁.advance Operator.or.symbol.length := hs.next
  rw [hnext] at h
  rcases goOn_cases .and (orderly_factor a) y c₃ with ⟨e, c₄, ho, -, hpos, -⟩ | ho
  · rw [goOn_of_parsed .or (orderly_term a) hor (h.trans ho)] at hrun
    exact reaches_of_goOn hrun hpos
  · refine Or.inr ?_
    rw [hrun]
    exact goOn_of_aborted .or (orderly_term a) hor (h.trans ho) x

/-- Where a sentence stands, the expression rule matches at least as far. -/
theorem reaches_of_derives (h : Derives .expr s e) (hs : c.Spans s c₁)
    (ha : allowancePerChar * s.length ≤ a) : Reaches a c c₁ := by
  cases h with
  | ofTerm h => exact reaches_of_term (h.runs hs ha)
  | @or s t l r hl hr =>
      obtain ⟨c₃, hs₃, hst⟩ := hs.split
      obtain ⟨c₂, hs₂, hsor⟩ := hs₃.split
      have hor : c₂.startsWith "||" = true := hsor.startsWith
      simp only [List.length_append] at ha
      -- an operator of the looser kind stands behind the part on the left
      have hrun : expr a c = goOn .or (term a) l c₂ := hl.runs hs₂ (covers_part ha (by omega))
        (Cursor.startsWith_eq_false hor rfl rfl (by decide))
      exact reaches_of_next_term hrun hsor (hr.runs hst (covers_part ha (by omega)))

end Grammar

namespace Reading

open Grammar

variable {text : String}

/-- The rest of a text behind `n` characters. -/
def restOf (text : String) (n : Nat) : String := String.ofList (text.toList.drop n)

/-- A sentence at the beginning of a text takes the reading at least as far. -/
theorem reaches_of_sentence {t : List Char} (ht : t <+: text.toList) (h : Sentence t) :
    Reaches (allowance text.length) (Cursor.ofString text)
      ((Cursor.ofString text).advance t.length) := by
  obtain ⟨e, he⟩ := h
  obtain ⟨r, hr⟩ := ht
  have hleft : (Cursor.ofString text).left = t ++ r := (Cursor.left_ofString text).trans hr.symm
  refine reaches_of_derives he ((Cursor.inside_ofString text).spans hleft).1 (allowance_covers ?_)
  rw [← String.length_toList, ← hr, List.length_append]
  omega

/-- A match of the expression rule is the longest sentence of the text. -/
theorem longestSentence_of_parsed {e : Expr} {c : Cursor}
    (h : expr (allowance text.length) (Cursor.ofString text) = .parsed e c) :
    ∃ n : Nat, c.pos = n ∧ c.left = text.toList.drop n ∧ LongestSentence text.toList n := by
  obtain ⟨s, hs, hd⟩ := reads_expr _ (Cursor.inside_ofString text) h
  have htext : text.toList = s ++ c.left := by rw [← Cursor.left_ofString, hs.left]
  have hpos : c.pos = s.length := by
    rw [hs.pos_eq]
    exact Int.zero_add _
  refine ⟨s.length, hpos, by rw [htext, List.drop_left], ?_, ?_, ?_⟩
  · rw [htext, List.length_append]
    omega
  · rw [htext, List.take_left]
    exact ⟨e, hd⟩
  · -- a longer sentence would have taken the rule further than it went
    intro t ht hsent
    rcases reaches_of_sentence ht hsent with ⟨e₂, c₂, hrun, hle⟩ | hrun
    · rw [h] at hrun
      cases hrun
      change 0 + (t.length : Int) ≤ c.pos at hle
      omega
    · rw [h] at hrun
      cases hrun

/-- A text that is not too deep for its allowance is a sentence, or is refused
    behind its longest sentence, or begins with no sentence. -/
theorem reading_cases (h : ¬ OutOfDepth text) :
    Sentence text.toList ∨
    (∃ n, ¬ Sentence text.toList ∧ n < text.toList.length ∧ LongestSentence text.toList n ∧
      readExpr text = .error
        ⟨.trailing (restOf text n), "could not parse " ++ restOf text n, n⟩) ∨
    (∃ f, (∀ t, t <+: text.toList → ¬ Sentence t) ∧
      readExpr text = .error ⟨.malformed (some f), f.message, f.position⟩) := by
  by_cases hsent : Sentence text.toList
  · exact Or.inl hsent
  · right
    cases hread : readExpr text with
    | ok e => exact absurd ⟨e, readExpr_ok_iff.mp hread⟩ hsent
    | error x =>
        rcases refusal_cases hread with ⟨f, hrun, rfl⟩ | ⟨e, c, hrun, rfl⟩ | ⟨hdeep, -⟩
        · refine Or.inr ⟨f, ?_, rfl⟩
          intro t ht hprefix
          rcases reaches_of_sentence ht hprefix with ⟨e, c, hrun', -⟩ | hrun' <;>
            rw [hrun] at hrun' <;> cases hrun'
        · -- the match ends before the text does, or the text would be a sentence
          obtain ⟨n, hpos, hleft, hlong⟩ := longestSentence_of_parsed hrun
          have hrest : c.rest = restOf text n := congrArg String.ofList hleft
          refine Or.inl ⟨n, hsent, Nat.lt_of_not_le ?_, hlong, ?_⟩
          · intro hle
            have hwhole := hlong.sentence
            rw [List.take_of_length_le hle] at hwhole
            exact hsent hwhole
          · rw [hrest, hpos]
        · exact absurd hdeep h

/-- A text is refused as trailing when it is no sentence but begins with
    one. -/
theorem trailing_iff (h : ¬ OutOfDepth text) :
    (∃ rest message position, readExpr text = .error ⟨.trailing rest, message, position⟩) ↔
      ¬ Sentence text.toList ∧ ∃ t, t <+: text.toList ∧ Sentence t := by
  rcases reading_cases h with ⟨e, he⟩ | ⟨n, hnot, -, hlong, herr⟩ | ⟨f, hnone, herr⟩
  · rw [readExpr_ok_iff.mpr he]
    constructor
    · rintro ⟨_, _, _, hr⟩
      exact nomatch hr
    · rintro ⟨hnot, -⟩
      exact absurd ⟨e, he⟩ hnot
  · rw [herr]
    constructor
    · rintro -
      exact ⟨hnot, _, List.take_prefix _ _, hlong.sentence⟩
    · rintro -
      exact ⟨_, _, _, rfl⟩
  · rw [herr]
    constructor
    · rintro ⟨_, _, _, hr⟩
      exact nomatch hr
    · rintro ⟨-, t, ht, hsent⟩
      exact absurd hsent (hnone t ht)

/-- A trailing refusal stands behind the longest sentence. -/
theorem trailing_spec (h : ¬ OutOfDepth text) {rest message : String} {position : Int}
    (hr : readExpr text = .error ⟨.trailing rest, message, position⟩) :
    ∃ n : Nat, position = n ∧ n < text.toList.length ∧ LongestSentence text.toList n ∧
      rest = restOf text n ∧ message = "could not parse " ++ rest := by
  rcases reading_cases h with ⟨e, he⟩ | ⟨n, -, hlt, hlong, herr⟩ | ⟨f, -, herr⟩
  · rw [readExpr_ok_iff.mpr he] at hr
    exact nomatch hr
  · rw [herr] at hr
    cases hr
    exact ⟨n, rfl, hlt, hlong, rfl, rfl⟩
  · rw [herr] at hr
    exact nomatch hr

/-- A text is refused as malformed when it begins with no sentence. -/
theorem malformed_iff (h : ¬ OutOfDepth text) :
    (∃ failure message position,
      readExpr text = .error ⟨.malformed failure, message, position⟩) ↔
      ∀ t, t <+: text.toList → ¬ Sentence t := by
  rcases reading_cases h with ⟨e, he⟩ | ⟨n, -, -, hlong, herr⟩ | ⟨f, hnone, herr⟩
  · rw [readExpr_ok_iff.mpr he]
    constructor
    · rintro ⟨_, _, _, hr⟩
      exact nomatch hr
    · intro hnone
      exact absurd ⟨e, he⟩ (hnone text.toList (List.prefix_refl _))
  · rw [herr]
    constructor
    · rintro ⟨_, _, _, hr⟩
      exact nomatch hr
    · intro hnone
      exact absurd hlong.sentence (hnone _ (List.take_prefix _ _))
  · rw [herr]
    exact ⟨fun _ => hnone, fun _ => ⟨_, _, _, rfl⟩⟩

/-- LONGEST SENTENCE: a text that is not too deep for its allowance is read
    if it is a sentence.  If it is none but begins with one, it is refused as
    trailing, behind the longest of them, with what is left over; that part
    alone is read.  If it begins with none, it is refused as malformed. -/
theorem reading_by_longest_sentence (text : String) (h : ¬ OutOfDepth text) :
    ((∃ e c, parse text = .ok (e, c)) ↔ Sentence text.toList) ∧
    ((∃ rest message position, readExpr text = .error ⟨.trailing rest, message, position⟩) ↔
      ¬ Sentence text.toList ∧ ∃ t, t <+: text.toList ∧ Sentence t) ∧
    (∀ rest message position, readExpr text = .error ⟨.trailing rest, message, position⟩ →
      ∃ n : Nat, position = n ∧ LongestSentence text.toList n ∧
        rest = String.ofList (text.toList.drop n) ∧ rest ≠ "" ∧
        message = "could not parse " ++ rest ∧
        ∃ e, readExpr (String.ofList (text.toList.take n)) = .ok e) ∧
    ((∃ failure message position,
      readExpr text = .error ⟨.malformed failure, message, position⟩) ↔
      ∀ t, t <+: text.toList → ¬ Sentence t) := by
  refine ⟨?_, trailing_iff h, ?_, malformed_iff h⟩
  · constructor
    · rintro ⟨e, c, hp⟩
      exact ⟨e, (derives_of_parse hp).1⟩
    · rintro ⟨e, he⟩
      exact ⟨e, _, parse_of_derives he⟩
  · intro rest message position hr
    obtain ⟨n, hpos, hlt, hlong, hrest, hmsg⟩ := trailing_spec h hr
    obtain ⟨e, he⟩ := hlong.sentence
    refine ⟨n, hpos, hlong, hrest, ?_, hmsg, e, readExpr_ok_iff.mpr ?_⟩
    · intro hempty
      rw [hrest] at hempty
      have hnil : text.toList.drop n = [] := String.ofList_eq_empty_iff.mp hempty
      rw [List.drop_eq_nil_iff] at hnil
      omega
    · rw [String.toList_ofList]
      exact he

/-- An operator without its operand is left over, and so is all behind it. -/
theorem reading_by_longest_sentence_unfinished :
    ¬ OutOfDepth "(true)||!&&false" ∧
      ∃ n : Nat, (6 : Int) = n ∧ LongestSentence "(true)||!&&false".toList n := by
  have h : ¬ OutOfDepth "(true)||!&&false" := by
    intro hdeep
    have hrun : Grammar.expr (allowance "(true)||!&&false".length)
        (Cursor.ofString "(true)||!&&false") =
          .parsed (.literal true) ((Cursor.ofString "(true)||!&&false").advance 6) := rfl
    exact nomatch hrun.symm.trans hdeep
  obtain ⟨n, hn, hlong, -⟩ := (reading_by_longest_sentence _ h).2.2.1 "||!&&false"
    "could not parse ||!&&false" 6 rfl
  exact ⟨h, n, hn, hlong⟩

end Reading

end TruthExpr
