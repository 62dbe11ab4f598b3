import TruthExpr.Grammar
import TruthExpr.Proofs.Allowance

/-! # Translation — a rule reads alike wherever its text stands

    Put a text `u` in front of another one, and move a cursor along.  A parser
    TRANSLATES if its outcome moves along as well: the same match, further on
    in the longer text, or the same failure with all its positions moved.  So
    it never looks at what stands to the left of its cursor.  The route:

    * `startsWith_behind`: a literal sees the same text ahead;
    * every combinator of translating parsers translates.  Choices need that
      the furthest position moves along with all others (`merge_shift`), and
      repetitions that the distance to the end stays the same;
    * so do all rules of the grammar (`translates_rules`), whatever their
      allowance, and an ample allowance is the same in both places. -/

namespace TruthExpr

variable {α β : Type} {u : List Char} {c : Cursor}

/-! ## Moved cursors, failures and outcomes -/

namespace Cursor

/-- The cursor at the same place of its text, with `u` in front of the text. -/
def behind (u : List Char) (c : Cursor) : Cursor :=
  { text := u.toArray ++ c.text, pos := c.pos + u.length }

/-- With `u` in front of `s`, the start of `s` stands behind `u`. -/
theorem behind_ofString (u s : String) :
    (ofString s).behind u.toList = { ofString (u ++ s) with pos := u.length } := by
  simp [behind, ofString, String.length_toList]

/-- It makes no difference whether a cursor first moves on or is moved along. -/
theorem behind_advance (u : List Char) (c : Cursor) (n : Int) :
    (c.behind u).advance n = (c.advance n).behind u := by
  simp only [behind, advance, Int.add_right_comm]

theorem size_behind (u : List Char) (c : Cursor) :
    ((c.behind u).text.size : Int) = c.text.size + u.length := by
  simp [behind, Int.add_comm]

/-- It has as much ahead as before. -/
theorem distance_behind (u : List Char) (c : Cursor) : (c.behind u).distance = c.distance := by
  rw [distance, distance, size_behind]
  show ((c.text.size : Int) + u.length - (c.pos + u.length)).toNat = _
  congr 1
  omega

theorem atEnd_behind (u : List Char) (c : Cursor) : (c.behind u).atEnd = c.atEnd := by
  rw [atEnd, atEnd, size_behind]
  show decide ((c.text.size : Int) + u.length ≤ c.pos + u.length) = _
  congr 1
  exact propext (by omega)

/-- What is left is the same, unless the cursor stands before its text. -/
theorem left_behind (h : 0 ≤ c.pos) : (c.behind u).left = c.left := by
  have hpos : 0 ≤ (c.behind u).pos := by
    show 0 ≤ c.pos + u.length
    omega
  have hadd : (c.behind u).pos.toNat = u.length + c.pos.toNat := by
    show (c.pos + u.length).toNat = _
    omega
  -- to drop what stands before the moved cursor is to drop `u` first
  rw [left, left, offset_of_nonneg h, offset_of_nonneg hpos, hadd]
  show (u.toArray ++ c.text).toList.drop _ = _
  rw [Array.toList_append, ← List.drop_drop, List.drop_left]

theorem rest_behind (h : 0 ≤ c.pos) : (c.behind u).rest = c.rest := by
  rw [rest, rest, left_behind h]

/-- A literal sees the same text ahead, so it matches or not as before. Cursors
    before their text are left out, since those count from the end of it. -/
theorem startsWith_behind (h : 0 ≤ c.pos) (lead : String) :
    (c.behind u).startsWith lead = c.startsWith lead := by
  rw [Bool.eq_iff_iff, startsWith_iff, startsWith_iff, left_behind h, size_behind]
  refine and_congr_left fun _ => ?_
  show c.pos + u.length ≤ c.text.size + u.length ↔ _
  omega

end Cursor

/-- The frame of a rule that began `n` characters further on. -/
def Frame.shift (n : Int) (f : Frame) : Frame := { f with position := f.position + n }

namespace Failure

/-- The failure with all its positions moved by `n` characters. -/
def shift (n : Int) (f : Failure) : Failure :=
  { f with position := f.position + n, frames := f.frames.map (Frame.shift n) }

theorem context_shift (n : Int) (frames : List Frame) :
    context (frames.map (Frame.shift n)) = context frames := by
  cases frames with
  | nil => rfl
  | cons g frames =>
      rw [List.map_cons, context, List.foldl_map]
      rfl

/-- No position is part of the words of a failure. -/
theorem describe_shift (n : Int) (f : Failure) : (f.shift n).describe = f.describe :=
  congrArg (" or ".intercalate f.expected ++ ·) (context_shift n f.frames)

/-- Nor is a position part of a message. -/
theorem message_shift (n : Int) (f : Failure) : (f.shift n).message = f.message := by
  rw [message, message, describe_shift]
  rfl

/-- The frame of a rule moves along with the failure it is put around. -/
theorem within_shift (n : Int) (f : Failure) (name : String) (position : Int) :
    (f.shift n).within name (position + n) = (f.within name position).shift n := by
  simp [within, shift, Frame.shift]

/-- The furthest of several positions moves along with them. -/
theorem furthest_shift (n : Int) (fs : List Failure) :
    ∀ start, furthest (start + n) (fs.map (shift n)) = furthest start fs + n := by
  induction fs with
  | nil => exact fun _ => rfl
  | cons f fs ih =>
      intro start
      show furthest (max (start + n) (f.position + n)) (fs.map (shift n)) = _
      rw [Int.max_add_right]
      exact ih (max start f.position)

/-- Failures moved along merge to what they merged to, moved along. -/
theorem merge_shift (n : Int) (f : Failure) (fs : List Failure) :
    merge (f.shift n) (fs.map (shift n)) = (merge f fs).shift n := by
  have hwords : (f.shift n :: fs.map (shift n)).map describe = (f :: fs).map describe := by
    rw [← List.map_cons, List.map_map]
    exact List.map_congr_left fun g _ => describe_shift n g
  rw [merge, hwords]
  show { expected := _, position := furthest (f.position + n) (fs.map (shift n)) } = shift n _
  rw [furthest_shift]
  rfl

/-- And where there is nothing to merge, there still is not. -/
theorem merge?_shift (n : Int) (fs : List Failure) :
    merge? (fs.map (shift n)) = (merge? fs).map (shift n) := by
  cases fs with
  | nil => rfl
  | cons f fs => exact congrArg some (merge_shift n f fs)

end Failure

/-- The outcome of the same run, with `u` in front of the text. -/
def Outcome.behind (u : List Char) : Outcome α → Outcome α
  | .parsed x c => .parsed x (c.behind u)
  | .failed f => .failed (f.shift u.length)
  | .aborted fault => .aborted fault

/-! ## Parsers that translate -/

namespace Parser

/-- The parser comes to the same, moved along, when a text is put in front.
    It also stays clear of what lies before the text, where cursors count from
    the end and nothing can be put in front. -/
structure Translates (p : Parser α) : Prop where
  forward : ∀ {c c₁ : Cursor} {x : α}, 0 ≤ c.pos → p c = .parsed x c₁ → 0 ≤ c₁.pos
  run : ∀ (u : List Char) {c : Cursor}, 0 ≤ c.pos → p (c.behind u) = (p c).behind u

variable {p : Parser α} {q : Parser β}

/-- A literal looks at what stands ahead of it, and moves on by its length. -/
theorem translates_labelled (text : String) (value : α) (name : String) :
    (labelled text value name).Translates where
  forward := by
    intro c c₁ x hc h
    rw [labelled] at h
    by_cases hs : c.startsWith text = true
    · rw [if_pos hs] at h
      cases h
      show 0 ≤ c.pos + text.length
      omega
    · rw [if_neg hs] at h
      cases h
  run := by
    intro u c hc
    rw [labelled, labelled, Cursor.startsWith_behind hc]
    by_cases hs : c.startsWith text = true
    · rw [if_pos hs, if_pos hs, Cursor.behind_advance]
      rfl
    · rw [if_neg hs, if_neg hs]
      rfl

/-- To match nothing needs no text at all. -/
theorem translates_succeed (x : α) : (succeed x).Translates where
  forward hc h := by
    cases h
    exact hc
  run _ _ _ := rfl

theorem translates_abort (fault : Fault) : (abort fault : Parser α).Translates where
  forward _ h := nomatch h
  run _ _ _ := rfl

/-- Behind a match that has moved along, the next parser begins as much further
    on. -/
theorem Translates.bind (hp : p.Translates) {k : α → Parser β} (hk : ∀ x, (k x).Translates) :
    (p.bind k).Translates where
  forward := by
    intro c c₂ y hc h
    obtain ⟨x, c₁, hx, hy⟩ := of_bind_parsed h
    exact (hk x).forward (hp.forward hc hx) hy
  run := by
    intro u c hc
    have hrun := hp.run u hc
    cases h : p c with
    | parsed x c₁ =>
        rw [h] at hrun
        rw [bind_of_parsed h, bind_of_parsed hrun]
        exact (hk x).run u (hp.forward hc h)
    | failed f =>
        rw [h] at hrun
        rw [bind_of_failed h, bind_of_failed hrun]
        rfl
    | aborted fault =>
        rw [h] at hrun
        rw [bind_of_aborted h, bind_of_aborted hrun]
        rfl

theorem Translates.andThen (hp : p.Translates) (hq : q.Translates) : (p.andThen q).Translates :=
  hp.bind fun _ => hq

theorem Translates.followedBy (hp : p.Translates) (hq : q.Translates) :
    (p.followedBy q).Translates :=
  hp.bind fun x => hq.bind fun _ => translates_succeed x

/-- A value does not depend on where the text stood that it was read from, so a
    fault found in it does not either. -/
theorem Translates.tryMap (hp : p.Translates) (f : α → Except Fault β) :
    (Parser.tryMap f p).Translates where
  forward := by
    intro c c₁ y hc h
    change (p c).tryMap f = _ at h
    cases hx : p c with
    | parsed x c₂ =>
        rw [hx, Outcome.tryMap] at h
        cases hf : f x with
        | ok z =>
            rw [hf] at h
            cases h
            exact hp.forward hc hx
        | error fault =>
            rw [hf] at h
            cases h
    | failed f => rw [hx] at h; cases h
    | aborted fault => rw [hx] at h; cases h
  run := by
    intro u c hc
    show (p (c.behind u)).tryMap f = ((p c).tryMap f).behind u
    rw [hp.run u hc]
    cases p c with
    | parsed x c₁ =>
        show (Outcome.parsed x (c₁.behind u)).tryMap f = ((Outcome.parsed x c₁).tryMap f).behind u
        rw [Outcome.tryMap, Outcome.tryMap]
        cases f x <;> rfl
    | failed f => rfl
    | aborted fault => rfl

theorem Translates.map (hp : p.Translates) (f : α → β) : (Parser.map f p).Translates where
  forward := by
    intro c c₁ y hc h
    obtain ⟨x, hx, -⟩ := of_map_parsed h
    exact hp.forward hc hx
  run := by
    intro u c hc
    show (p (c.behind u)).map f = ((p c).map f).behind u
    rw [hp.run u hc]
    cases p c <;> rfl

/-- What is done to failures has to move along with them. -/
theorem Translates.mapFailure (hp : p.Translates) {g : Cursor → Failure → Failure}
    (hg : ∀ u c f, g (c.behind u) (f.shift u.length) = (g c f).shift u.length) :
    Translates fun c => (p c).mapFailure (g c) where
  forward hc h := hp.forward hc (of_mapFailure_parsed h)
  run := by
    intro u c hc
    show (p (c.behind u)).mapFailure (g (c.behind u)) = ((p c).mapFailure (g c)).behind u
    rw [hp.run u hc]
    cases p c with
    | parsed x c₁ => rfl
    | failed f => exact congrArg Outcome.failed (hg u c f)
    | aborted fault => rfl

theorem Translates.committing (hp : p.Translates) : p.committing.Translates :=
  hp.mapFailure fun _ _ _ => rfl

theorem Translates.label (hp : p.Translates) (name : String) : (Parser.label name p).Translates :=
  hp.mapFailure fun _ _ _ => rfl

/-- A rule's frame has the position where the rule began, which moves along. -/
theorem Translates.rule (hp : p.Translates) (name : String) : (Parser.rule name p).Translates :=
  hp.mapFailure fun u c f => Failure.within_shift u.length f name c.pos

/-- The failures of the alternatives that have been tried move along. -/
theorem tryAll_behind {ps : List (Parser α)} (hps : ∀ p ∈ ps, p.Translates) (u : List Char)
    (hc : 0 ≤ c.pos) : ∀ failures : List Failure,
      tryAll ps (failures.map (Failure.shift u.length)) (c.behind u) =
        (tryAll ps failures c).behind u := by
  induction ps with
  | nil =>
      intro failures
      rw [tryAll, tryAll, Failure.merge?_shift]
      cases Failure.merge? failures <;> rfl
  | cons p ps ih =>
      -- what has failed so far is kept general: each alternative adds to it
      intro failures
      rw [tryAll, tryAll, (hps p (List.mem_cons_self ..)).run u hc]
      cases p c with
      | parsed x c₁ => rfl
      | failed f =>
          show (if f.committed = true then _ else _) =
            Outcome.behind u (if f.committed = true then _ else _)
          by_cases hcom : f.committed = true
          · rw [if_pos hcom, if_pos hcom]
            rfl
          · rw [if_neg hcom, if_neg hcom,
              ← ih (fun p hp => hps p (List.mem_cons_of_mem _ hp)) (failures ++ [f]),
              List.map_append]
            rfl
      | aborted fault => rfl

/-- A choice has seen no failures yet, in either place. -/
theorem translates_choice {ps : List (Parser α)} (hps : ∀ p ∈ ps, p.Translates) :
    (choice ps).Translates where
  forward := by
    intro c c₁ x hc h
    obtain ⟨p, hmem, hp⟩ := of_tryAll_parsed h
    exact (hps p hmem).forward hc hp
  run u _ hc := tryAll_behind hps u hc []

/-- One round of a repetition: an operator and an operand. -/
def oneRound (p : Parser α) (q : Parser β) : Parser (β × α) :=
  q.bind fun y => p.map fun x => (y, x)

/-- A repetition goes on behind each whole round, as long as it may. -/
theorem rounds_eq_oneRound (p : Parser α) (q : Parser β) (n : Nat) (c : Cursor) :
    p.rounds q n c =
      match oneRound p q c, n with
      | .parsed _ _, 0 => .aborted .endlessRepetition
      | .parsed (y, x) c₁, n + 1 => (p.rounds q n c₁).map fun items => .inr y :: .inl x :: items
      | .failed _, _ => .parsed [] c
      | .aborted fault, _ => .aborted fault := by
  rw [Parser.rounds, oneRound, Parser.bind]
  cases q c with
  | parsed y c₁ =>
      dsimp only [Parser.map]
      cases p c₁ <;> cases n <;> rfl
  | failed f => rfl
  | aborted fault => rfl

/-- A repetition of what translates ends behind the same round. -/
theorem Translates.rounds (hp : p.Translates) (hq : q.Translates) (n : Nat) :
    (p.rounds q n).Translates := by
  have hround : (oneRound p q).Translates := hq.bind fun y => hp.map _
  -- on the rounds that are left; a round that fails gives the cursor back, so
  -- the repetition ends where it began in both places
  induction n with
  | zero =>
      constructor
      · intro c c₁ items hc h
        rw [rounds_eq_oneRound] at h
        cases hr : oneRound p q c <;> rw [hr] at h <;> cases h
        exact hc
      · intro u c hc
        rw [rounds_eq_oneRound, rounds_eq_oneRound, hround.run u hc]
        cases oneRound p q c <;> rfl
  | succ n ih =>
      constructor
      · intro c c₁ items hc h
        rw [rounds_eq_oneRound] at h
        cases hr : oneRound p q c with
        | parsed yx c₂ =>
            rw [hr] at h
            exact (ih.map _).forward (hround.forward hc hr) h
        | failed f => rw [hr] at h; cases h; exact hc
        | aborted fault => rw [hr] at h; cases h
      · intro u c hc
        rw [rounds_eq_oneRound, rounds_eq_oneRound, hround.run u hc]
        cases hr : oneRound p q c with
        | parsed yx c₁ => exact (ih.map _).run u (hround.forward hc hr)
        | failed f => rfl
        | aborted fault => rfl

/-- The rounds are bounded by the text ahead, and so is their number. -/
theorem Translates.separated (hp : p.Translates) (hq : q.Translates) :
    (p.separated q).Translates := by
  refine hp.bind fun first => ?_
  constructor
  · intro c c₁ items hc h
    exact ((hp.rounds hq c.distance).map _).forward hc h
  · intro u c hc
    -- as many rounds may be made as there are characters ahead
    show (p.rounds q (c.behind u).distance (c.behind u)).map _ = _
    rw [Cursor.distance_behind]
    exact ((hp.rounds hq c.distance).map _).run u hc

end Parser

/-! ## The grammar -/

namespace Grammar

open TruthExpr.Parser

variable {p q : Parser Expr}

theorem translates_spent : spent.Translates := translates_abort _

theorem translates_constant : constant.Translates := by
  refine ((translates_choice ?_).label "boolean").map Expr.literal
  intro p hp
  simp only [List.mem_cons, List.not_mem_nil, or_false] at hp
  rcases hp with rfl | rfl
  · exact translates_labelled _ _ _
  · exact translates_labelled _ _ _

theorem translates_negationOf (hp : p.Translates) : (negationOf p).Translates :=
  (translates_labelled _ _ _).andThen (hp.committing.map Expr.not)

theorem translates_groupOf (hp : p.Translates) : (groupOf p).Translates :=
  (translates_labelled _ _ _).andThen (hp.followedBy (translates_labelled _ _ _))

/-- A factor is a choice among three, of which two are given. -/
theorem translates_factorOf (hp : p.Translates) (hq : q.Translates) :
    (factorOf p q).Translates := by
  refine (translates_choice ?_).rule "factor"
  intro r hr
  simp only [List.mem_cons, List.not_mem_nil, or_false] at hr
  rcases hr with rfl | rfl | rfl
  · exact hp
  · exact hq
  · exact translates_constant

theorem translates_termOf (hp : p.Translates) : (termOf p).Translates :=
  ((hp.separated (translates_labelled _ _ _)).tryMap Expr.foldChain).rule "term"

theorem translates_exprOf (hp : p.Translates) : (exprOf p).Translates :=
  ((hp.separated (translates_labelled _ _ _)).tryMap Expr.foldChain).rule "expr"

/-- All rules translate at once, whatever they may spend: each is built from
    rules with less. -/
theorem translates_rules (a : Nat) :
    (factor a).Translates ∧ (term a).Translates ∧ (expr a).Translates :=
  rule_induction (motive := fun _ p => p.Translates) (fun _ => translates_spent)
    (fun _ _ hp hq => translates_factorOf (translates_negationOf hp) (translates_groupOf hq))
    (fun _ hp => translates_termOf hp) (fun _ hp => translates_exprOf hp) a

theorem translates_negation (a : Nat) : (negation a).Translates :=
  translates_negationOf (paying_cases translates_spent (fun a => (translates_rules a).1) _ a)

theorem translates_group (a : Nat) : (group a).Translates :=
  translates_groupOf (paying_cases translates_spent (fun a => (translates_rules a).2.2) _ a)

/-- An ample allowance is the same in both places. -/
theorem translates_unlimited {rule : Nat → Parser Expr} (h : ∀ a, (rule a).Translates) :
    (unlimited rule).Translates where
  forward hc hr := (h _).forward hc hr
  run := by
    intro u c hc
    show rule (ample (c.behind u)) (c.behind u) = _
    rw [ample, Cursor.distance_behind]
    exact (h _).run u hc

namespace Rule

/-- Every parser of the grammar translates. -/
theorem translates (rule : Rule) : rule.parser.Translates := by
  cases rule with
  | expr => exact (translates_unlimited fun a => (translates_rules a).2.2).map _
  | term => exact (translates_unlimited fun a => (translates_rules a).2.1).map _
  | factor => exact (translates_unlimited fun a => (translates_rules a).1).map _
  | constant => exact translates_constant.map _
  | negation => exact (translates_unlimited translates_negation).map _
  | group => exact (translates_unlimited translates_group).map _
  | trueWord | falseWord | bang | andSign | orSign | opening | closing =>
      exact (translates_labelled _ _ _).map _

theorem orderly (rule : Rule) : rule.parser.Orderly := by
  cases rule with
  | expr => exact (orderly_unlimited orderly_expr).map _
  | term => exact (orderly_unlimited orderly_term).map _
  | factor => exact (orderly_unlimited orderly_factor).map _
  | constant => exact orderly_constant.map _
  | negation => exact (orderly_unlimited orderly_negation).map _
  | group => exact (orderly_unlimited orderly_group).map _
  | trueWord | falseWord | bang | andSign | orSign | opening | closing =>
      exact (orderly_labelled _ _ (by decide)).map _

/-- Every rule comes to a match or to a failure, wherever it begins. -/
theorem parser_ne_aborted (rule : Rule) (c : Cursor) (fault : Fault) :
    rule.parser c ≠ .aborted fault := by
  intro hab
  have hfault := rule.orderly c
  rw [hab] at hfault
  -- an orderly parser is only given up when its allowance is spent, and an
  -- ample one never is
  cases hfault
  cases rule with
  | expr => exact unlimited_ne_aborted .expr c (of_map_aborted hab)
  | term => exact unlimited_ne_aborted .term c (of_map_aborted hab)
  | factor => exact unlimited_ne_aborted .factor c (of_map_aborted hab)
  | constant => exact answers_constant c (Nat.le_refl _) (of_map_aborted hab)
  | negation =>
      exact answers_negation (Nat.le_refl (ample c)) c (Nat.le_refl _) (of_map_aborted hab)
  | group => exact answers_group (Nat.le_refl (ample c)) c (Nat.le_refl _) (of_map_aborted hab)
  | trueWord | falseWord | bang | andSign | orSign | opening | closing =>
      exact literal_ne_aborted _ _ (of_map_aborted hab)

/-- NEVER LOOKING LEFT: between two parts of one text, each rule of the grammar
    comes to what it comes to at the beginning of the second part alone, and
    it always comes to something.  A match has the same value and leaves the
    same text; a failure expects the same, is as committed, and says the same;
    and all positions are further on by the length of the first part. -/
theorem never_looks_left (rule : Rule) (u s : String) :
    (∀ fault, rule.parser (Cursor.ofString s) ≠ .aborted fault) ∧
    (∀ v c, rule.parser (Cursor.ofString s) = .parsed v c →
      ∃ c₁, rule.parser { Cursor.ofString (u ++ s) with pos := u.length } = .parsed v c₁ ∧
        c₁.text = (u ++ s).toList.toArray ∧ c₁.pos = c.pos + u.length ∧ c₁.rest = c.rest ∧
        c₁.atEnd = c.atEnd) ∧
    (∀ f, rule.parser (Cursor.ofString s) = .failed f →
      ∃ f₁, rule.parser { Cursor.ofString (u ++ s) with pos := u.length } = .failed f₁ ∧
        f₁.expected = f.expected ∧ f₁.committed = f.committed ∧ f₁.remainder = f.remainder ∧
        f₁.message = f.message ∧ f₁.position = f.position + u.length ∧
        f₁.frames = f.frames.map fun g => { g with position := g.position + u.length }) := by
  have hstart : 0 ≤ (Cursor.ofString s).pos := Int.le_refl 0
  have hrun := rule.translates.run u.toList hstart
  rw [Cursor.behind_ofString] at hrun
  have hlen : (u.length : Int) = u.toList.length := congrArg _ String.length_toList.symm
  refine ⟨rule.parser_ne_aborted _, ?_, ?_⟩
  · intro v c h
    have hpos := rule.translates.forward hstart h
    have ho := rule.orderly (Cursor.ofString s)
    rw [h] at hrun ho
    refine ⟨_, hrun, ?_, congrArg (c.pos + ·) hlen.symm, Cursor.rest_behind hpos,
      Cursor.atEnd_behind _ _⟩
    show u.toList.toArray ++ c.text = _
    rw [ho.1, String.toList_append]
    exact List.append_toArray _ _
  · intro f h
    rw [h] at hrun
    refine ⟨_, hrun, rfl, rfl, rfl, Failure.message_shift _ _,
      congrArg (f.position + ·) hlen.symm, ?_⟩
    rw [hlen]
    rfl

end Rule

end Grammar

end TruthExpr
