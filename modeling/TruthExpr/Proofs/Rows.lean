import TruthExpr.Value

/-! # Rows — one fold for expressions and for values of all kinds

    The grammar folds rows of expressions and operators, and parsers put
    together by hand fold rows of anything.  It is the same fold, given another
    way to join.  The route:

    * `fold_unfinished_iff`: a row is refused for its length exactly when this
      is even, if joining never is;
    * `joinBy_follows` and `foldPairs_follows`: joining the values of items
      comes to the value of what the items come to, and so does folding them,
      up to where an operator is taken for an operand;
    * `foldRow_ofItems`: so the two folds tell the same chains from the same
      rows, and refuse the others alike. -/

namespace TruthExpr

/-! ## Rows that are no chains -/

namespace Row

variable {α : Type} {join : α → α → α → Except Fault α}

/-- If joining never blames the length of a row, no fold does so once it has
    begun. -/
theorem foldPairs_ne_unfinished (hjoin : ∀ op x y n, join op x y ≠ .error (.unfinishedChain n))
    (n : Nat) (x : α) (items : List α) : foldPairs join x items ≠ .error (.unfinishedChain n) := by
  fun_induction foldPairs join x items with
  | case1 x op y rest z hz ih => exact ih
  | case2 x op y rest fault hfault =>
      intro h
      cases h
      exact hjoin op x y n hfault
  | case3 =>
      intro h
      cases h

/-- Then a row is refused for its length exactly when this is even. -/
theorem fold_unfinished_iff (hjoin : ∀ op x y n, join op x y ≠ .error (.unfinishedChain n))
    (items : List α) (n : Nat) :
    fold join items = .error (.unfinishedChain n) ↔ items.length = n ∧ n % 2 = 0 := by
  cases items with
  | nil =>
      constructor
      · intro h
        cases h
        exact ⟨rfl, rfl⟩
      · rintro ⟨rfl, -⟩
        rfl
  | cons x rest =>
      rw [fold, List.length_cons]
      by_cases heven : rest.length % 2 = 0
      · rw [if_pos heven]
        refine iff_of_false (foldPairs_ne_unfinished hjoin n x rest) ?_
        rintro ⟨rfl, h⟩
        omega
      · rw [if_neg heven]
        constructor
        · intro h
          cases h
          exact ⟨rfl, by omega⟩
        · rintro ⟨rfl, -⟩
          rfl

end Row

/-- Joining two items is never at fault for the length of a row. -/
theorem ChainItem.join_ne_unfinished (op x y : ChainItem) (n : Nat) :
    join op x y ≠ .error (.unfinishedChain n) := by
  rcases op with e | op
  · exact fun h => nomatch h
  · rcases x with x | op₁ <;> rcases y with y | op₂ <;> exact fun h => nomatch h

theorem Value.joinBy_ne_unfinished (op x y : Value) (n : Nat) :
    joinBy op x y ≠ .error (.unfinishedChain n) := by
  cases op <;> exact fun h => nomatch h

/-- A chain is refused for its length just as its row is: what is wrong with a
    single item is another matter. -/
theorem Expr.foldChain_unfinished_iff (items : List ChainItem) (n : Nat) :
    foldChain items = .error (.unfinishedChain n) ↔ items.length = n ∧ n % 2 = 0 := by
  rw [← Row.fold_unfinished_iff ChainItem.join_ne_unfinished, foldChain]
  cases Row.fold ChainItem.join items with
  | error fault =>
      constructor <;>
        · intro h
          cases h
          rfl
  | ok item => cases item <;> exact iff_of_false (fun h => nomatch h) (fun h => nomatch h)

/-! ## Rows of values -/

namespace Value

theorem ofExpr_build (op : Operator) (l r : Expr) :
    ofExpr (op.build l r) = join op (ofExpr l) (ofExpr r) := by
  cases op <;> rfl

/-- Different trees are different values. -/
theorem ofExpr_injective : Function.Injective ofExpr := by
  intro e
  induction e with
  | literal b =>
      intro e₁ h
      cases e₁ <;> cases h
      rfl
  | not e ih =>
      intro e₁ h
      cases e₁ with
      | not e₁ => exact congrArg Expr.not (ih (Value.not.inj h))
      | literal | and | or => cases h
  | and l r ihl ihr =>
      intro e₁ h
      cases e₁ with
      | and l₁ r₁ =>
          obtain ⟨hl, hr⟩ := Value.and.inj h
          rw [ihl hl, ihr hr]
      | literal | not | or => cases h
  | or l r ihl ihr =>
      intro e₁ h
      cases e₁ with
      | or l₁ r₁ =>
          obtain ⟨hl, hr⟩ := Value.or.inj h
          rw [ihl hl, ihr hr]
      | literal | not | and => cases h

/-- The operands of an expression are expressions. -/
theorem of_join_eq_ofExpr {op : Operator} {x y : Value} {e : Expr} (h : join op x y = ofExpr e) :
    (∃ l, x = ofExpr l) ∧ ∃ r, y = ofExpr r := by
  cases op with
  | and =>
      cases e with
      | and l r =>
          obtain ⟨hl, hr⟩ := Value.and.inj h
          exact ⟨⟨l, hl⟩, r, hr⟩
      | literal | not | or => cases h
  | or =>
      cases e with
      | or l r =>
          obtain ⟨hl, hr⟩ := Value.or.inj h
          exact ⟨⟨l, hl⟩, r, hr⟩
      | literal | not | and => cases h

/-- The items of a chain as values. -/
def ofItem : ChainItem → Value
  | .inl e => ofExpr e
  | .inr op => .operator op

theorem operator_ne_ofExpr (op : Operator) (e : Expr) : Value.operator op ≠ ofExpr e := by
  cases e <;> exact fun h => nomatch h

/-- Values come to what the items come to that they are the values of, unless an
    operator has been taken for an operand.  Of items that is refused, and of
    values it is none of an expression. -/
def Follows (items : Except Fault ChainItem) (values : Except Fault Value) : Prop :=
  values = items.map ofItem ∨
    (items = .error .misplacedItem ∧ ∀ e : Expr, values ≠ .ok (ofExpr e))

/-- One step of the two folds, for any three items. -/
theorem joinBy_follows (op x y : ChainItem) :
    Follows (ChainItem.join op x y) (joinBy (ofItem op) (ofItem x) (ofItem y)) := by
  rcases op with e | op
  · -- an expression joins nothing
    refine Or.inl ?_
    cases e <;> rfl
  · rcases x with x | op₁
    · rcases y with y | op₂
      · exact Or.inl (congrArg Except.ok (ofExpr_build op x y).symm)
      · refine Or.inr ⟨rfl, fun e h => ?_⟩
        obtain ⟨-, r, hr⟩ := of_join_eq_ofExpr (Except.ok.inj h)
        exact operator_ne_ofExpr op₂ r hr
    · refine Or.inr ⟨by cases y <;> rfl, fun e h => ?_⟩
      obtain ⟨⟨l, hl⟩, -⟩ := of_join_eq_ofExpr (Except.ok.inj h)
      exact operator_ne_ofExpr op₁ l hl

/-- What is no expression is not made one by what follows it in a row. -/
theorem foldPairs_ne_ofExpr {x : Value} (values : List Value) (hx : ∀ e : Expr, x ≠ ofExpr e)
    (e : Expr) : Row.foldPairs joinBy x values ≠ .ok (ofExpr e) := by
  fun_induction Row.foldPairs joinBy x values with
  | case1 x op y rest z hz ih =>
      refine ih fun e₁ hze => ?_
      subst hze
      cases op with
      | operator op =>
          obtain ⟨⟨l, hl⟩, -⟩ := of_join_eq_ofExpr (Except.ok.inj hz)
          exact hx l hl
      | _ => cases hz
  | case2 => exact fun h => nomatch h
  | case3 => exact fun h => hx e (Except.ok.inj h)

/-- All steps, by induction on the row: what has been joined so far is kept
    general. -/
theorem foldPairs_follows (x : ChainItem) (items : List ChainItem) :
    Follows (Row.foldPairs ChainItem.join x items)
      (Row.foldPairs joinBy (ofItem x) (items.map ofItem)) := by
  fun_induction Row.foldPairs ChainItem.join x items with
  | case1 x op y rest z hz ih =>
      have hjoin := joinBy_follows op x y
      rw [hz] at hjoin
      obtain hvalue | ⟨h, -⟩ := hjoin
      · rw [List.map_cons, List.map_cons, Row.foldPairs, hvalue]
        exact ih
      · cases h
  | case2 x op y rest fault hfault =>
      have hjoin := joinBy_follows op x y
      rw [hfault] at hjoin
      rw [List.map_cons, List.map_cons, Row.foldPairs]
      obtain hvalue | ⟨h, hvalue⟩ := hjoin
      · rw [hvalue]
        exact Or.inl rfl
      · refine Or.inr ⟨h, ?_⟩
        cases hv : joinBy (ofItem op) (ofItem x) (ofItem y) with
        | ok v => exact foldPairs_ne_ofExpr _ fun e he => hvalue e (by rw [hv, he])
        | error fault => exact fun e h => nomatch h
  | case3 items x hshort =>
      refine Or.inl ?_
      rcases items with _ | ⟨op, _ | ⟨y, rest⟩⟩
      · rfl
      · rfl
      · exact absurd rfl (hshort op y rest)

/-- So the two folds follow one another on every row, be it well formed or
    not. -/
theorem foldRow_follows (items : List ChainItem) :
    Follows (Row.fold ChainItem.join items) (foldRow (items.map ofItem)) := by
  cases items with
  | nil => exact Or.inl rfl
  | cons x rest =>
      rw [foldRow, List.map_cons, Row.fold, Row.fold, List.length_map]
      split
      · exact foldPairs_follows x rest
      · exact Or.inl rfl

/-- ITEMS AND VALUES ARE FOLDED ALIKE, whatever a row holds: its values are
    folded to an expression exactly if its items are folded to it, and they are
    refused as the items are, unless the items are refused because an operator
    stands where an expression has no place for it. -/
theorem foldRow_ofItems (items : List ChainItem) :
    (∀ e, foldRow (items.map ofItem) = .ok (ofExpr e) ↔ Expr.foldChain items = .ok e) ∧
    ∀ fault, fault ≠ .misplacedItem → Expr.foldChain items = .error fault →
      foldRow (items.map ofItem) = .error fault := by
  rw [Expr.foldChain]
  obtain hvalue | ⟨hitems, hvalue⟩ := foldRow_follows items
  · rw [hvalue]
    cases Row.fold ChainItem.join items with
    | error fault =>
        refine ⟨fun e => iff_of_false (fun h => nomatch h) (fun h => nomatch h), ?_⟩
        intro fault₁ _ h
        cases h
        rfl
    | ok item =>
        rcases item with x | op
        · refine ⟨fun e => ⟨fun h => ?_, fun h => ?_⟩, fun fault _ h => nomatch h⟩
          · exact congrArg Except.ok (ofExpr_injective (Except.ok.inj h))
          · exact congrArg (Except.ok ∘ ofExpr) (Except.ok.inj h)
        · refine ⟨fun e => iff_of_false ?_ (fun h => nomatch h), ?_⟩
          · exact fun h => operator_ne_ofExpr op e (Except.ok.inj h)
          · intro fault hfault h
            exact absurd (Except.error.inj h).symm hfault
  · rw [hitems]
    refine ⟨fun e => iff_of_false (hvalue e) (fun h => nomatch h), ?_⟩
    intro fault hfault h
    exact absurd (Except.error.inj h).symm hfault

end Value

end TruthExpr
