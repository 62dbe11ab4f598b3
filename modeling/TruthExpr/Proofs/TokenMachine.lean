import TruthExpr.Proofs.Derivation
import TruthExpr.Reading

/-! # The token machine — it builds the trees that the grammar derives

    The machine sees tokens where the grammar has characters, and it never
    looks back.  The route:

    * scanning is undone by spelling: a text that falls into tokens is what
      they spell, and what tokens spell falls into just these
      (`scan_spell`, `spell_of_scan`);
    * `Derives.feeds` — the tokens of a derived text take the machine from
      wanting an operand to having it, under whatever is open;
    * `Holds` is what a state says about the characters taken so far: each
      thing that is open stands for a part of them.  Every step keeps it
      (`step_holds`), and at the end it is a derivation (`finish_holds`). -/

namespace TruthExpr

/-- The characters of a row of tokens. -/
def spell (ts : List Token) : List Char := ts.flatMap fun t => t.text.toList

theorem spell_append (ts us : List Token) : spell (ts ++ us) = spell ts ++ spell us :=
  List.flatMap_append

theorem spell_cons (t : Token) (ts : List Token) :
    spell (t :: ts) = t.text.toList ++ spell ts := rfl

theorem spell_singleton (t : Token) : spell [t] = t.text.toList := by
  rw [spell_cons]
  exact List.append_nil _

namespace Scan

/-- The tokens of a scan. -/
def tokens (s : Scan) : List Token := s.lexemes.map Lexeme.token

/-- A token at the beginning is scanned first, whatever follows it. -/
theorem ofChars_token (t : Token) (position : Nat) (rest : List Char) :
    ofChars position (t.text.toList ++ rest)
      = push t position (ofChars (position + t.text.length) rest) := by
  cases t <;> rfl

/-- What tokens spell falls into just these tokens. -/
theorem scan_spell :
    ∀ (ts : List Token) (position : Nat),
      (ofChars position (spell ts)).stop = none ∧ (ofChars position (spell ts)).tokens = ts := by
  intro ts
  induction ts with
  | nil => intro position; exact ⟨rfl, rfl⟩
  | cons t ts ih =>
      intro position
      obtain ⟨hstop, htokens⟩ := ih (position + t.text.length)
      show (ofChars position (t.text.toList ++ spell ts)).stop = none ∧
        (ofChars position (t.text.toList ++ spell ts)).tokens = t :: ts
      rw [ofChars_token]
      exact ⟨hstop, congrArg (t :: ·) htokens⟩

/-- A text that falls into tokens is what they spell. -/
theorem spell_of_scan (position : Nat) (s : List Char) :
    (ofChars position s).stop = none → spell (ofChars position s).tokens = s := by
  fun_induction ofChars position s with
  | case1 => intro _; rfl
  | case2 position rest ih | case3 position rest ih | case4 position rest ih
  | case5 position rest ih | case6 position rest ih | case7 position rest ih
  | case8 position rest ih =>
      intro h
      show spell (_ :: (ofChars _ rest).tokens) = _
      rw [spell_cons, ih h]
      simp [Token.text]
  | case9 => intro h; cases h

end Scan

namespace Machine

/-- Takes tokens in order. -/
def feed : Machine → List Token → Option Machine
  | m, [] => some m
  | m, t :: ts => (m.step t).bind fun m => feed m ts

theorem feed_of_step {m m₁ : Machine} {t : Token} (h : m.step t = some m₁) (ts : List Token) :
    m.feed (t :: ts) = m₁.feed ts := by
  show (m.step t).bind _ = _
  rw [h]
  rfl

/-- To be fed two rows is to be fed the one and then the other. -/
theorem feed_bind (us : List Token) :
    ∀ (ts : List Token) (m : Machine), m.feed (ts ++ us) = (m.feed ts).bind fun m => m.feed us := by
  intro ts
  induction ts with
  | nil => intro m; rfl
  | cons t ts ih =>
      intro m
      show ((m.step t).bind fun m => feed m (ts ++ us)) =
        ((m.step t).bind fun m => feed m ts).bind _
      cases m.step t with
      | none => rfl
      | some m₁ => exact ih m₁

/-- If the first row is taken, the second decides. -/
theorem feed_append (ts us : List Token) {m m₁ : Machine} (h : m.feed ts = some m₁) :
    m.feed (ts ++ us) = m₁.feed us := by
  rw [feed_bind, h]
  rfl

/-- A run answers a tree when the whole text could be scanned, all tokens were
    taken, and the machine could finish. -/
theorem run_ok_iff (stop : Option (Nat × Char)) (e : Expr) :
    ∀ (ls : List Lexeme) (m : Machine) (last : Option Lexeme),
      run stop m last ls = .ok e ↔
        stop = none ∧ ∃ m₁, m.feed (ls.map Lexeme.token) = some m₁ ∧ m₁.finish = some e := by
  intro ls
  induction ls with
  | nil =>
      intro m last
      unfold run
      cases stop with
      | none =>
          cases hf : m.finish with
          | none => simp [feed, hf]
          | some x => simp [feed, hf]
      | some p => simp
  | cons l ls ih =>
      intro m last
      unfold run
      cases hs : m.step l.token with
      | none => simp [feed, hs]
      | some m₁ => simp [feed, hs, ih]

/-- A text is read just if it is spelled by tokens that the machine takes and
    can finish with. -/
theorem read_ok_iff (s : List Char) (e : Expr) :
    read s = .ok e ↔
      ∃ ts m, s = spell ts ∧ start.feed ts = some m ∧ m.finish = some e := by
  unfold read
  dsimp only
  rw [run_ok_iff]
  constructor
  · rintro ⟨hstop, m, hfeed, hfin⟩
    exact ⟨_, m, (Scan.spell_of_scan 0 s hstop).symm, hfeed, hfin⟩
  · rintro ⟨ts, m, rfl, hfeed, hfin⟩
    obtain ⟨hstop, htokens⟩ := Scan.scan_spell ts 0
    refine ⟨hstop, m, ?_, hfin⟩
    change start.feed (Scan.ofChars 0 (spell ts)).tokens = some m
    rw [htokens]
    exact hfeed

/-! ## Derived texts are taken -/

/-- Nothing on top waits for an operand: a term may begin here. -/
def AtTerm : List Open → Prop
  | .negation :: _ => False
  | .andWith _ :: _ => False
  | _ => True

/-- Nothing is open up to the innermost parenthesis: an expression may begin
    here. -/
def AtExpr : List Open → Prop
  | [] => True
  | .group :: _ => True
  | _ => False

theorem AtExpr.atTerm : ∀ {stack : List Open}, AtExpr stack → AtTerm stack
  | [], _ => trivial
  | .group :: _, _ => trivial

/-- At the beginning of a term there are no signs to take off. -/
theorem closeOperand_of_atTerm (e : Expr) :
    ∀ {stack : List Open}, AtTerm stack → closeOperand e stack = .wantsOperator e stack
  | [], _ => rfl
  | .group :: _, _ => rfl
  | .orWith _ :: _, _ => rfl

theorem closeTerm_of_atExpr (e : Expr) :
    ∀ {stack : List Open}, AtExpr stack → closeTerm e stack = (e, stack)
  | [], _ => rfl
  | .group :: _, _ => rfl

variable {stack : List Open} {e : Expr}

/-- A parenthesis is closed when the chain in it is complete. -/
theorem step_closing_iff {m : Machine} :
    (wantsOperator e stack).step .closing = some m ↔
      ∃ x rest, closeTerm e stack = (x, .group :: rest) ∧ m = closeOperand x rest := by
  rcases hc : closeTerm e stack with ⟨x, stack₁⟩
  unfold step
  simp only [hc]
  cases stack₁ with
  | nil => simp
  | cons o rest =>
      cases o with
      | group =>
          constructor
          · intro h
            cases h
            exact ⟨x, rest, rfl, rfl⟩
          · rintro ⟨y, rest₁, h, rfl⟩
            cases h
            rfl
      | negation => simp
      | andWith l => simp
      | orWith l => simp

/-- A text may end when its chain is complete and nothing is open below. -/
theorem finish_iff {x : Expr} :
    (wantsOperator e stack).finish = some x ↔ closeTerm e stack = (x, []) := by
  rcases hc : closeTerm e stack with ⟨y, stack₁⟩
  unfold finish
  simp only [hc]
  cases stack₁ with
  | nil => simp
  | cons o rest => simp

/-- What the tokens of a derived text do to a machine that wants an operand.
    A chain of disjunctions may leave its last operand to be joined. -/
def Feeds (ts : List Token) (e : Expr) : Level → Prop
  | .factor => ∀ stack, (wantsOperand stack).feed ts = some (closeOperand e stack)
  | .term => ∀ stack, AtTerm stack →
      (wantsOperand stack).feed ts = some (.wantsOperator e stack)
  | .expr => ∀ stack, AtExpr stack → ∃ x stack₁,
      (wantsOperand stack).feed ts = some (.wantsOperator x stack₁) ∧
        closeTerm x stack₁ = (e, stack)

/-- A token behind tokens that were taken. -/
theorem feed_concat {m m₁ m₂ : Machine} {ts : List Token} {t : Token}
    (h : m.feed ts = some m₁) (hstep : m₁.step t = some m₂) : m.feed (ts ++ [t]) = some m₂ := by
  rw [feed_append ts [t] h]
  show (m₁.step t).bind some = some m₂
  rw [hstep]
  rfl

end Machine

open Machine in
/-- Every derived text falls into tokens that the machine takes. -/
theorem Derives.feeds {level : Level} {s : List Char} {e : Expr} (h : Derives level s e) :
    ∃ ts, s = spell ts ∧ Feeds ts e level := by
  induction h with
  | trueWord => exact ⟨[.trueWord], (spell_singleton .trueWord).symm, fun stack => rfl⟩
  | falseWord => exact ⟨[.falseWord], (spell_singleton .falseWord).symm, fun stack => rfl⟩
  | negation _ ih =>
      obtain ⟨ts, rfl, hf⟩ := ih
      exact ⟨.bang :: ts, rfl, fun stack => hf (.negation :: stack)⟩
  | group _ ih =>
      obtain ⟨ts, rfl, hf⟩ := ih
      refine ⟨.opening :: ts ++ [.closing], ?_, ?_⟩
      · rw [spell_append, spell_singleton]
        rfl
      · intro stack
        obtain ⟨x, stack₁, hfeed, hclose⟩ := hf (.group :: stack) trivial
        have hinside : (wantsOperand stack).feed (.opening :: ts) =
            some (.wantsOperator x stack₁) := hfeed
        exact feed_concat hinside (step_closing_iff.mpr ⟨_, stack, hclose, rfl⟩)
  | ofFactor _ ih =>
      obtain ⟨ts, rfl, hf⟩ := ih
      refine ⟨ts, rfl, ?_⟩
      intro stack hterm
      rw [hf stack, closeOperand_of_atTerm _ hterm]
  | and _ _ ihl ihr =>
      obtain ⟨ts, rfl, hf⟩ := ihl
      obtain ⟨us, rfl, hg⟩ := ihr
      refine ⟨ts ++ [.andSign] ++ us, ?_, ?_⟩
      · rw [spell_append, spell_append, spell_singleton]
        rfl
      · intro stack hterm
        rw [feed_append _ us (feed_concat (hf stack hterm) rfl), hg]
        rfl
  | ofTerm _ ih =>
      obtain ⟨ts, rfl, hf⟩ := ih
      refine ⟨ts, rfl, ?_⟩
      intro stack hexpr
      exact ⟨_, stack, hf stack hexpr.atTerm, closeTerm_of_atExpr _ hexpr⟩
  | @or _ _ l r _ _ ihl ihr =>
      obtain ⟨ts, rfl, hf⟩ := ihl
      obtain ⟨us, rfl, hg⟩ := ihr
      refine ⟨ts ++ [.orSign] ++ us, ?_, ?_⟩
      · rw [spell_append, spell_append, spell_singleton]
        rfl
      · intro stack hexpr
        -- the sign joins what the chain on the left has left open
        obtain ⟨x, stack₁, hfeed, hclose⟩ := hf stack hexpr
        have hor : (wantsOperator x stack₁).step .orSign
            = some (.wantsOperand (.orWith l :: stack)) := by
          simp [step, hclose]
        refine ⟨r, .orWith l :: stack, ?_, rfl⟩
        rw [feed_append _ us (feed_concat hfeed hor)]
        exact hg (.orWith l :: stack) trivial

namespace Machine

/-! ## What is taken is derived -/

variable {stack : List Open} {e : Expr} {s u : List Char} {m m₁ : Machine} {t : Token}

/-- What is open stands for characters taken before: signs, and chains whose
    next operand is to come.  Chains lie where their rule may begin. -/
inductive Explains : List Open → List Char → Prop where
  | nil : Explains [] []
  | negation {stack : List Open} {u : List Char} :
      Explains stack u → Explains (.negation :: stack) (u ++ "!".toList)
  | group {stack : List Open} {u : List Char} :
      Explains stack u → Explains (.group :: stack) (u ++ "(".toList)
  | andWith {stack : List Open} {u s : List Char} {l : Expr} :
      Explains stack u → AtTerm stack → Derives .term s l →
      Explains (.andWith l :: stack) (u ++ s ++ "&&".toList)
  | orWith {stack : List Open} {u s : List Char} {l : Expr} :
      Explains stack u → AtExpr stack → Derives .expr s l →
      Explains (.orWith l :: stack) (u ++ s ++ "||".toList)

/-- What a state says about the characters that have been taken. -/
def Holds : Machine → List Char → Prop
  | .wantsOperand stack, u => Explains stack u
  | .wantsOperator e stack, u =>
      ∃ v s, u = v ++ s ∧ Explains stack v ∧ AtTerm stack ∧ Derives .term s e

/-- An operand that is complete closes what waits for it. -/
theorem closeOperand_holds {v : List Char} (h : Explains stack v) :
    ∀ {s : List Char} {e : Expr}, Derives .factor s e → Holds (closeOperand e stack) (v ++ s) := by
  induction h with
  | nil => intro s e hd; exact ⟨[], s, rfl, .nil, trivial, .ofFactor hd⟩
  | negation _ ih =>
      intro s e hd
      rw [List.append_assoc]
      exact ih (.negation hd)
  | group h _ =>
      intro s e hd
      exact ⟨_, s, rfl, .group h, trivial, .ofFactor hd⟩
  | @andWith stack u s₁ l h hterm hl _ =>
      intro s e hd
      exact ⟨u, s₁ ++ "&&".toList ++ s, by simp [List.append_assoc], h, hterm, .and hl hd⟩
  | orWith h hexpr hl _ =>
      intro s e hd
      exact ⟨_, s, rfl, .orWith h hexpr hl, trivial, .ofFactor hd⟩

/-- A conjunction that is complete closes a disjunction that waits for it. -/
theorem closeTerm_holds {v : List Char} (h : Explains stack v) (hterm : AtTerm stack)
    (hd : Derives .term s e) :
    ∃ v₁ s₁, v ++ s = v₁ ++ s₁ ∧ Explains (closeTerm e stack).2 v₁ ∧
      AtExpr (closeTerm e stack).2 ∧ Derives .expr s₁ (closeTerm e stack).1 := by
  cases h with
  | nil => exact ⟨[], s, rfl, .nil, trivial, .ofTerm hd⟩
  | negation _ => exact hterm.elim
  | group h => exact ⟨_, s, rfl, .group h, trivial, .ofTerm hd⟩
  | andWith _ _ _ => exact hterm.elim
  | @orWith stack u s₁ l h hexpr hl =>
      exact ⟨u, s₁ ++ "||".toList ++ s, by simp [List.append_assoc], h, hexpr, .or hl hd⟩

/-- Every step keeps what the state says, with the token added. -/
theorem step_holds (h : m.Holds u) (hstep : m.step t = some m₁) :
    m₁.Holds (u ++ t.text.toList) := by
  cases m with
  | wantsOperand stack =>
      cases t <;> cases hstep
      · exact closeOperand_holds h .trueWord
      · exact closeOperand_holds h .falseWord
      · exact .negation h
      · exact .group h
  | wantsOperator e stack =>
      obtain ⟨v, s, rfl, hv, hterm, hd⟩ := h
      cases t with
      | andSign =>
          cases hstep
          exact .andWith hv hterm hd
      | orSign =>
          obtain ⟨v₁, s₁, heq, hv₁, hexpr, hd₁⟩ := closeTerm_holds hv hterm hd
          cases hstep
          rw [heq]
          exact .orWith hv₁ hexpr hd₁
      | closing =>
          obtain ⟨x, rest, hc, rfl⟩ := step_closing_iff.mp hstep
          obtain ⟨v₁, s₁, heq, hv₁, -, hd₁⟩ := closeTerm_holds hv hterm hd
          rw [hc] at hv₁ hd₁
          rw [heq]
          -- the group on top has taken its parenthesis, and is a factor now
          cases hv₁ with
          | @group _ u hu =>
              have hg : (closeOperand x rest).Holds (u ++ ("(".toList ++ s₁ ++ ")".toList)) :=
                closeOperand_holds hu (.group hd₁)
              rw [List.append_assoc, List.append_assoc u]
              rw [List.append_assoc] at hg
              exact hg
      | trueWord => cases hstep
      | falseWord => cases hstep
      | bang => cases hstep
      | opening => cases hstep

/-- What a state says is kept by a whole row of tokens. -/
theorem feed_holds :
    ∀ (ts : List Token) {m m₁ : Machine} {u : List Char},
      m.Holds u → m.feed ts = some m₁ → m₁.Holds (u ++ spell ts) := by
  intro ts
  induction ts with
  | nil =>
      intro m m₁ u h hfeed
      cases hfeed
      rw [spell, List.flatMap_nil, List.append_nil]
      exact h
  | cons t ts ih =>
      intro m m₁ u h hfeed
      obtain ⟨m₂, hstep, hrest⟩ := Option.bind_eq_some_iff.mp hfeed
      rw [spell_cons, ← List.append_assoc]
      exact ih (step_holds h hstep) hrest

/-- A machine that can finish has taken a sentence. -/
theorem finish_holds (h : m.Holds u) (hfin : m.finish = some e) : Derives .expr u e := by
  cases m with
  | wantsOperand stack => cases hfin
  | wantsOperator x stack =>
      obtain ⟨v, s, rfl, hv, hterm, hd⟩ := h
      obtain ⟨v₁, s₁, heq, hv₁, -, hd₁⟩ := closeTerm_holds hv hterm hd
      rw [finish_iff.mp hfin] at hv₁ hd₁
      cases hv₁
      rw [heq]
      exact hd₁

/-- The machine reads a text as `e` exactly when the grammar derives it with
    the tree `e`. -/
theorem read_eq_ok_iff (s : List Char) (e : Expr) : read s = .ok e ↔ Derives .expr s e := by
  rw [read_ok_iff]
  constructor
  · rintro ⟨ts, m, rfl, hfeed, hfin⟩
    have hstart : start.Holds [] := Explains.nil
    exact finish_holds (feed_holds ts hstart hfeed) hfin
  · intro h
    obtain ⟨ts, rfl, hf⟩ := h.feeds
    obtain ⟨x, stack, hfeed, hclose⟩ := hf [] trivial
    exact ⟨ts, _, rfl, hfeed, finish_iff.mpr hclose⟩

/-- A machine that reads for a user accepts the same texts, with the same
    trees. -/
theorem readExpr_ok_iff {text : String} {e : Expr} :
    Machine.readExpr text = .ok e ↔ Derives .expr text.toList e := by
  rw [← read_eq_ok_iff]
  unfold Machine.readExpr
  cases Machine.read text.toList with
  | ok x =>
      constructor
      · intro h
        cases h
        rfl
      · intro h
        cases h
        rfl
  | error r =>
      constructor
      · intro h
        cases h
      · intro h
        cases h

end Machine

end TruthExpr
