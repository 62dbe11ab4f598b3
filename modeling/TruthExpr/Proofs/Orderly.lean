import TruthExpr.Grammar
import TruthExpr.Proofs.Match

/-! # Orderly parsers — what running a part of the grammar can come to

    An ORDERLY parser moves on in its text when it matches, never speaks of
    left-over text when it fails, and is given up for want of allowance only.
    Literals with a text are orderly, and so is whatever is put together from
    orderly parts.

    Orderly parts are also what a repetition needs: `rounds_eq` says that its
    number of rounds does not matter as long as it covers the distance to the
    end of the text. -/

namespace TruthExpr

variable {α β : Type}

/-- The outcome of an orderly run from `c`. -/
def Outcome.Orderly (c : Cursor) : Outcome α → Prop
  | .parsed _ c₁ => c₁.text = c.text ∧ c.pos < c₁.pos ∧ c₁.pos ≤ c.text.size
  | .failed f => f.remainder = none
  | .aborted fault => fault = .nestedTooDeeply

/-- The outcome of a run from `c` that need not move on, but is orderly in
    all else. -/
def Outcome.Steady (c : Cursor) : Outcome α → Prop
  | .parsed _ c₁ =>
      c₁.text = c.text ∧ c.pos ≤ c₁.pos ∧ (c.pos ≤ c.text.size → c₁.pos ≤ c.text.size)
  | .failed f => f.remainder = none
  | .aborted fault => fault = .nestedTooDeeply

/-- Whoever moves on does not go back. -/
theorem Outcome.Orderly.steady {c : Cursor} {o : Outcome α} (h : o.Orderly c) : o.Steady c := by
  cases o with
  | parsed x c₁ =>
      obtain ⟨htext, hlt, hle⟩ := h
      exact ⟨htext, Int.le_of_lt hlt, fun _ => hle⟩
  | failed f => exact h
  | aborted fault => exact h

theorem Outcome.Steady.map {c : Cursor} {o : Outcome α} (h : o.Steady c) (f : α → β) :
    (o.map f).Steady c := by
  cases o <;> exact h

namespace Parser

/-- Every run is orderly, wherever it begins. -/
def Orderly (p : Parser α) : Prop := ∀ c, (p c).Orderly c

variable {p : Parser α} {q : Parser β}

/-- An orderly match keeps to its text and moves on in it. -/
theorem Orderly.of_parsed (hp : p.Orderly) {c c₁ : Cursor} {x : α} (h : p c = .parsed x c₁) :
    c₁.text = c.text ∧ c.pos < c₁.pos ∧ c₁.pos ≤ c.text.size := by
  have ho := hp c
  rw [h] at ho
  exact ho

/-- An orderly run is given up for want of allowance only. -/
theorem Orderly.of_aborted (hp : p.Orderly) {c : Cursor} {fault : Fault}
    (h : p c = .aborted fault) : fault = .nestedTooDeeply := by
  have ho := hp c
  rw [h] at ho
  exact ho

/-- An orderly match comes closer to the end of the text. -/
theorem Orderly.distance_lt (hp : p.Orderly) {c c₁ : Cursor} {x : α}
    (h : p c = .parsed x c₁) : c₁.distance < c.distance := by
  obtain ⟨htext, hlt, hle⟩ := hp.of_parsed h
  rw [Cursor.distance, Cursor.distance, htext]
  omega

theorem Orderly.steady (hp : p.Orderly) (c : Cursor) : (p c).Steady c := (hp c).steady

/-- Matching nothing is steady, though it is not orderly. -/
theorem steady_succeed (x : α) (c : Cursor) : (succeed x c).Steady c :=
  ⟨rfl, Int.le_refl _, id⟩

/-- A literal moves on by its text, so it must have one. -/
theorem orderly_labelled {text : String} (value : α) (label : String) (h : 0 < text.length) :
    (labelled text value label).Orderly := by
  intro c
  unfold labelled
  by_cases hs : c.startsWith text = true
  · rw [if_pos hs]
    refine ⟨rfl, ?_, Cursor.pos_add_length_le hs⟩
    show c.pos < c.pos + text.length
    omega
  · rw [if_neg hs]
    rfl

/-- A change of the value leaves cursor and failure as they are. -/
theorem Orderly.map (hp : p.Orderly) (f : α → β) : (Parser.map f p).Orderly := by
  intro c
  have ho := hp c
  show ((p c).map f).Orderly c
  cases h : p c <;> rw [h] at ho <;> exact ho

/-- What is done to failures does not matter if it leaves no text over. -/
theorem Orderly.mapFailure (hp : p.Orderly) {g : Cursor → Failure → Failure}
    (hg : ∀ c f, f.remainder = none → (g c f).remainder = none) :
    Orderly (fun c => (p c).mapFailure (g c)) := by
  intro c
  have ho := hp c
  show ((p c).mapFailure (g c)).Orderly c
  cases h : p c <;> rw [h] at ho
  · exact ho
  · exact hg c _ ho
  · exact ho

/-- A frame leaves no text over, and neither does a commitment or a label. -/
theorem Orderly.rule (hp : p.Orderly) (name : String) : (Parser.rule name p).Orderly :=
  hp.mapFailure fun _ _ h => h

theorem Orderly.committing (hp : p.Orderly) : p.committing.Orderly :=
  hp.mapFailure fun _ _ h => h

theorem Orderly.label (hp : p.Orderly) (name : String) : (Parser.label name p).Orderly :=
  hp.mapFailure fun _ _ _ => rfl

/-- An orderly parser and whatever its value calls for, as long as that does
    not go back. -/
theorem Orderly.bind (hp : p.Orderly) {k : α → Parser β} (hk : ∀ x c, (k x c).Steady c) :
    (p.bind k).Orderly := by
  intro c
  have ho := hp c
  cases h : p c with
  | parsed x c₁ =>
      rw [h] at ho
      obtain ⟨htext, hlt, hle⟩ := ho
      have ho₁ := hk x c₁
      rw [bind_of_parsed h]
      cases h₁ : k x c₁ with
      | parsed y c₂ =>
          rw [h₁] at ho₁
          obtain ⟨htext₁, hle₁, hsize₁⟩ := ho₁
          rw [htext] at htext₁ hsize₁
          exact ⟨htext₁, Int.lt_of_lt_of_le hlt hle₁, hsize₁ hle⟩
      | failed f => rw [h₁] at ho₁; exact ho₁
      | aborted fault => rw [h₁] at ho₁; exact ho₁
  | failed f => rw [bind_of_failed h]; rw [h] at ho; exact ho
  | aborted fault => rw [bind_of_aborted h]; rw [h] at ho; exact ho

/-- Of two orderly parsers in a row, the second does not go back. -/
theorem Orderly.andThen (hp : p.Orderly) (hq : q.Orderly) : (p.andThen q).Orderly :=
  hp.bind fun _ => hq.steady

theorem Orderly.followedBy (hp : p.Orderly) (hq : q.Orderly) : (p.followedBy q).Orderly := by
  refine hp.bind fun x => (hq.bind ?_).steady
  intro _ c
  exact steady_succeed x c

/-- A choice ends as one of its alternatives does, or with a merged failure.
    There must be something to merge: an alternative that is left, or the
    failure of one that has been tried. -/
theorem orderly_tryAll {ps : List (Parser α)} (hps : ∀ p ∈ ps, p.Orderly)
    {failures : List Failure} (h : ps ≠ [] ∨ failures ≠ []) : (tryAll ps failures).Orderly := by
  intro c
  induction ps generalizing failures with
  | nil =>
      -- some alternative has failed by now, so there is a failure to report
      obtain ⟨f, rest, rfl⟩ : ∃ f rest, failures = f :: rest :=
        List.exists_cons_of_ne_nil (h.resolve_left fun h => h rfl)
      rfl
  | cons p ps ih =>
      have ho := hps p (List.mem_cons_self ..) c
      unfold tryAll
      cases hp : p c with
      | parsed x c₁ => rw [hp] at ho; exact ho
      | failed f =>
          rw [hp] at ho
          show Outcome.Orderly c (if f.committed then .failed f.release else _)
          by_cases hc : f.committed = true
          · rw [if_pos hc]
            exact ho
          · rw [if_neg hc]
            exact ih (fun p hp => hps p (List.mem_cons_of_mem _ hp)) (Or.inr (by simp))
      | aborted fault => rw [hp] at ho; exact ho

/-- A choice among orderly alternatives is orderly if there are any. -/
theorem orderly_choice {ps : List (Parser α)} (hps : ∀ p ∈ ps, p.Orderly) (h : ps ≠ []) :
    (choice ps).Orderly :=
  orderly_tryAll hps (Or.inl h)

/-! ## Repetitions -/

/-- The rounds end before an operator that is not there. -/
theorem rounds_of_failed {c : Cursor} {f : Failure} (h : q c = .failed f) (n : Nat) :
    p.rounds q n c = .parsed [] c := by
  rw [rounds, h]

theorem rounds_of_aborted {c : Cursor} {fault : Fault} (h : q c = .aborted fault) (n : Nat) :
    p.rounds q n c = .aborted fault := by
  rw [rounds, h]

/-- Without an operand behind it, an operator is not read either. -/
theorem rounds_of_operand_failed {c c₁ : Cursor} {y : β} {f : Failure} (h : q c = .parsed y c₁)
    (h₁ : p c₁ = .failed f) (n : Nat) : p.rounds q n c = .parsed [] c := by
  unfold rounds
  simp only [h, h₁]

/-- But an operand that is given up ends all. -/
theorem rounds_of_operand_aborted {c c₁ : Cursor} {y : β} {fault : Fault} (h : q c = .parsed y c₁)
    (h₁ : p c₁ = .aborted fault) (n : Nat) : p.rounds q n c = .aborted fault := by
  unfold rounds
  simp only [h, h₁]

/-- A whole round, and the rounds behind it. -/
theorem rounds_of_parsed {c c₁ c₂ : Cursor} {y : β} {x : α} (h : q c = .parsed y c₁)
    (h₁ : p c₁ = .parsed x c₂) (n : Nat) :
    p.rounds q (n + 1) c = (p.rounds q n c₂).map fun items => .inr y :: .inl x :: items := by
  rw [rounds]
  simp only [h, h₁]

/-- Every round adds an operator and an operand. -/
theorem length_rounds (p : Parser α) (q : Parser β) (n : Nat) (c : Cursor) :
    ∀ (items : List (α ⊕ β)) (c₁ : Cursor),
      p.rounds q n c = .parsed items c₁ → items.length % 2 = 0 := by
  fun_induction rounds p q n c with
  | case1 c | case3 c =>
      intro items c₁ h
      cases h
      rfl
  | case2 | case4 | case5 =>
      intro items c₁ h
      cases h
  | case6 c y c₂ hy x c₃ hx n ih =>
      intro items c₁ h
      cases hr : p.rounds q n c₃ with
      | parsed rest c₄ =>
          rw [hr] at h
          cases h
          have := ih rest c₁ hr
          show (rest.length + 1 + 1) % 2 = 0
          omega
      | failed f => rw [hr] at h; cases h
      | aborted fault => rw [hr] at h; cases h

/-- The number of rounds does not matter if it covers the distance to the end
    of the text. -/
theorem rounds_eq (hp : p.Orderly) (hq : q.Orderly) :
    ∀ (n m : Nat) (c : Cursor), c.distance ≤ n → c.distance ≤ m →
      p.rounds q n c = p.rounds q m c := by
  intro n
  induction n with
  | zero =>
      intro m c hn _
      cases hop : q c with
      | parsed y c₁ =>
          have := hq.distance_lt hop
          omega
      | failed f => rw [rounds_of_failed hop, rounds_of_failed hop]
      | aborted fault => rw [rounds_of_aborted hop, rounds_of_aborted hop]
  | succ n ih =>
      intro m c hn hm
      cases hop : q c with
      | parsed y c₁ =>
          have h₁ := hq.distance_lt hop
          cases hx : p c₁ with
          | parsed x c₂ =>
              have h₂ := hp.distance_lt hx
              -- the round has moved on, so neither number was zero
              obtain ⟨m, rfl⟩ : ∃ k, m = k + 1 := ⟨m - 1, by omega⟩
              rw [rounds_of_parsed hop hx, rounds_of_parsed hop hx,
                ih m c₂ (by omega) (by omega)]
          | failed f => rw [rounds_of_operand_failed hop hx, rounds_of_operand_failed hop hx]
          | aborted fault =>
              rw [rounds_of_operand_aborted hop hx, rounds_of_operand_aborted hop hx]
      | failed f => rw [rounds_of_failed hop, rounds_of_failed hop]
      | aborted fault => rw [rounds_of_aborted hop, rounds_of_aborted hop]

end Parser

end TruthExpr
