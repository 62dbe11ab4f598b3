import TruthExpr.Proofs.Derivation
import TruthExpr.Proofs.Orderly

/-! # Chains — a row of operands folded while it is read

    The grammar collects a chain as a row and folds it afterwards.  Here the
    two are one loop: `goOn op p x` stands behind a chain whose tree so far is
    `x` and reads on from there.  The route:

    * `chain_eq`: collecting and folding is reading one operand and going on;
    * `goOn_eq`: one turn of the loop, for orderly operands;
    * `goOn_induction`: what the turns of the loop keep, the whole loop keeps;
    * `orderly_chain`: a chain of orderly operands is orderly, so the fold
      never meets a row that is none. -/

namespace TruthExpr

namespace Grammar

open TruthExpr.Parser

variable {op : Operator} {p : Parser Expr}

/-- The sign of an operator. -/
def signOf (op : Operator) : Parser Operator := .literal op.symbol op

/-- Goes on with a chain whose tree so far is `x`. -/
def goOn (op : Operator) (p : Parser Expr) (x : Expr) : Parser Expr := fun c =>
  (p.rounds (signOf op) c.distance c).tryMap (Expr.foldPairs x)

/-- An operand and what follows it in a chain. -/
def chain (op : Operator) (p : Parser Expr) : Parser Expr := p.bind (goOn op p)

/-- The sign of an operator is not empty. -/
theorem length_symbol (op : Operator) : 0 < op.symbol.length := by
  cases op <;> decide

theorem orderly_signOf (op : Operator) : (signOf op).Orderly :=
  orderly_labelled op _ (length_symbol op)

/-- The sign of an operator is read as that operator. -/
theorem signOf_of_startsWith {c : Cursor} (h : c.startsWith op.symbol = true) :
    signOf op c = .parsed op (c.advance op.symbol.length) := if_pos h

/-- And nothing else is. -/
theorem signOf_of_not_startsWith {c : Cursor} (h : c.startsWith op.symbol = false) :
    ∃ f, signOf op c = .failed f :=
  ⟨_, if_neg (by rw [h]; exact Bool.false_ne_true)⟩

/-! ## Collecting and folding are one loop -/

/-- A row of odd length that begins with an operand is folded from there. -/
theorem foldChain_cons (x : Expr) {items : List ChainItem} (h : items.length % 2 = 0) :
    Expr.foldChain (.inl x :: items) = Expr.foldPairs x items := by
  rw [Expr.foldChain, Row.fold, if_pos h]
  rfl

/-- Collecting a row and folding it is reading one operand and going on. -/
theorem chain_eq (op : Operator) (p : Parser Expr) :
    Parser.tryMap Expr.foldChain (p.separated (signOf op)) = chain op p := by
  funext c
  unfold Parser.tryMap separated chain goOn Parser.bind
  cases p c with
  | parsed x c₁ =>
      dsimp only
      cases hr : p.rounds (signOf op) c₁.distance c₁ with
      | parsed items c₂ =>
          simp only [Outcome.map, Outcome.tryMap, foldChain_cons x (length_rounds _ _ _ _ _ _ hr)]
      | failed f => rfl
      | aborted fault => rfl
  | failed f => rfl
  | aborted fault => rfl

/-- Both levels of the grammar are such chains, each in its frame. -/
theorem termOf_eq (p : Parser Expr) : termOf p = .rule "term" (chain .and p) :=
  congrArg (Parser.rule "term") (chain_eq .and p)

theorem exprOf_eq (p : Parser Expr) : exprOf p = .rule "expr" (chain .or p) :=
  congrArg (Parser.rule "expr") (chain_eq .or p)

/-! ## One turn of the loop -/

/-- Behind a chain, the loop reads an operator and an operand and goes on with
    the joined tree; it drops the operator if no operand follows it. -/
theorem goOn_eq (hp : p.Orderly) (x : Expr) (c : Cursor) :
    goOn op p x c =
      if c.startsWith op.symbol then
        match p (c.advance op.symbol.length) with
        | .parsed y c₁ => goOn op p (op.build x y) c₁
        | .failed _ => .parsed x c
        | .aborted fault => .aborted fault
      else .parsed x c := by
  by_cases hs : c.startsWith op.symbol = true
  · have hsign := signOf_of_startsWith hs
    have hlt := (orderly_signOf op).distance_lt hsign
    rw [if_pos hs]
    unfold goOn
    cases hy : p (c.advance op.symbol.length) with
    | parsed y c₁ =>
        have hlt₁ := hp.distance_lt hy
        -- the rounds that are left still cover what is left of the text
        obtain ⟨n, hn⟩ : ∃ n, c.distance = n + 1 := ⟨c.distance - 1, by omega⟩
        rw [hn, rounds_of_parsed hsign hy,
          rounds_eq hp (orderly_signOf op) n c₁.distance c₁ (by omega) (Nat.le_refl _)]
        dsimp only
        cases p.rounds (signOf op) c₁.distance c₁ <;> rfl
    | failed f => rw [rounds_of_operand_failed hsign hy]; rfl
    | aborted fault => rw [rounds_of_operand_aborted hsign hy]; rfl
  · rw [if_neg hs]
    obtain ⟨f, hf⟩ : ∃ f, signOf op c = .failed f :=
      signOf_of_not_startsWith (Bool.eq_false_iff.mpr hs)
    rw [goOn, rounds_of_failed hf]
    rfl

/-- Where its sign does not stand, the loop stops. -/
theorem goOn_of_not_startsWith (hp : p.Orderly) {c : Cursor} (h : c.startsWith op.symbol = false)
    (x : Expr) : goOn op p x c = .parsed x c := by
  rw [goOn_eq hp, if_neg (by rw [h]; exact Bool.false_ne_true)]

/-- A sign with an operand behind it is a turn of the loop. -/
theorem goOn_of_parsed (op : Operator) (hp : p.Orderly) {c c₁ : Cursor}
    (h : c.startsWith op.symbol = true) {y : Expr}
    (hy : p (c.advance op.symbol.length) = .parsed y c₁) (x : Expr) :
    goOn op p x c = goOn op p (op.build x y) c₁ := by
  rw [goOn_eq hp, if_pos h, hy]

/-- An operand that is given up gives up the loop. -/
theorem goOn_of_aborted (op : Operator) (hp : p.Orderly) {c : Cursor}
    (h : c.startsWith op.symbol = true) {fault : Fault}
    (hy : p (c.advance op.symbol.length) = .aborted fault) (x : Expr) :
    goOn op p x c = .aborted fault := by
  rw [goOn_eq hp, if_pos h, hy]

/-- What holds where the loop stops and is kept by its turns holds of what it
    comes to. -/
theorem goOn_induction (op : Operator) (hp : p.Orderly)
    {motive : Expr → Cursor → Outcome Expr → Prop}
    (stop : ∀ x c, motive x c (.parsed x c))
    (abort : ∀ x c fault, c.startsWith op.symbol = true →
      p (c.advance op.symbol.length) = .aborted fault → motive x c (.aborted fault))
    (turn : ∀ x c y c₁ o, c.startsWith op.symbol = true →
      p (c.advance op.symbol.length) = .parsed y c₁ →
      motive (op.build x y) c₁ o → motive x c o) :
    ∀ x c, motive x c (goOn op p x c) := by
  intro x c
  induction hd : c.distance using Nat.strongRecOn generalizing x c with
  | ind n ih =>
      rw [goOn_eq hp]
      by_cases hs : c.startsWith op.symbol = true
      · rw [if_pos hs]
        cases hy : p (c.advance op.symbol.length) with
        | parsed y c₁ =>
            -- a turn brings the cursor nearer to the end of the text
            have hlt := (orderly_signOf op).distance_lt (signOf_of_startsWith hs)
            have hlt₁ := hp.distance_lt hy
            exact turn x c y c₁ _ hs hy (ih c₁.distance (by omega) _ _ rfl)
        | failed f => exact stop x c
        | aborted fault => exact abort x c fault hs hy
      · rw [if_neg hs]
        exact stop x c

/-- The loop never fails: it ends behind what it has read or is given up. -/
theorem goOn_cases (op : Operator) (hp : p.Orderly) (x : Expr) (c : Cursor) :
    (∃ e c₁, goOn op p x c = .parsed e c₁ ∧ c₁.text = c.text ∧ c.pos ≤ c₁.pos ∧
      (c.pos ≤ c.text.size → c₁.pos ≤ c.text.size)) ∨
      goOn op p x c = .aborted .nestedTooDeeply := by
  refine goOn_induction op hp (motive := fun _ c o =>
    (∃ e c₁, o = .parsed e c₁ ∧ c₁.text = c.text ∧ c.pos ≤ c₁.pos ∧
      (c.pos ≤ c.text.size → c₁.pos ≤ c.text.size)) ∨ o = .aborted .nestedTooDeeply)
    ?_ ?_ ?_ x c
  · intro x c
    exact Or.inl ⟨x, c, rfl, rfl, Int.le_refl _, id⟩
  · intro x c fault _ hf
    exact Or.inr (congrArg Outcome.aborted (hp.of_aborted hf))
  · intro x c y c₁ o _ hy ih
    obtain ⟨htext, hlt, hle⟩ := hp.of_parsed hy
    change c.pos + op.symbol.length < c₁.pos at hlt
    change c₁.text = c.text at htext
    change c₁.pos ≤ c.text.size at hle
    rcases ih with ⟨e, c₂, ho, htext₂, hpos₂, hsize₂⟩ | ho
    · rw [htext] at htext₂ hsize₂
      exact Or.inl ⟨e, c₂, ho, htext₂, by omega, fun _ => hsize₂ hle⟩
    · exact Or.inr ho

/-- The loop does not go back. -/
theorem steady_goOn (op : Operator) (hp : p.Orderly) (x : Expr) (c : Cursor) :
    (goOn op p x c).Steady c := by
  rcases goOn_cases op hp x c with ⟨e, c₁, ho, h⟩ | ho
  · rw [ho]
    exact h
  · rw [ho]
    rfl

/-- So a chain moves on because its first operand does. -/
theorem orderly_chain (op : Operator) (hp : p.Orderly) : (chain op p).Orderly :=
  hp.bind (steady_goOn op hp)

/-- A frame changes nothing about a loop, which has no failures. -/
theorem mapFailure_goOn (hp : p.Orderly) (x : Expr) (c : Cursor) (g : Failure → Failure) :
    (goOn op p x c).mapFailure g = goOn op p x c := by
  rcases goOn_cases op hp x c with ⟨e, c₁, ho, -⟩ | ho <;> rw [ho] <;> rfl

/-- Behind its first operand, a chain with its frame is the loop. -/
theorem rule_chain_of_parsed (hp : p.Orderly) {c c₁ : Cursor} {x : Expr}
    (h : p c = .parsed x c₁) (name : String) :
    Parser.rule name (chain op p) c = goOn op p x c₁ := by
  show (chain op p c).mapFailure _ = _
  rw [chain, bind_of_parsed h]
  exact mapFailure_goOn hp x c₁ _

end Grammar

end TruthExpr
