import TruthExpr.Proofs.Orderly

/-! # Repetitions — the pairs a repetition reads, counted without rounds

    `separated` is given a number of rounds so that it is a function.  What it
    repeats is described here without any: `Completes p q c k c₁` says that
    behind an operand at `c`, `k` operators with their operands match in a
    row, up to `c₁`.  Nothing in it bounds `k`.  The route:

    * `Completes.bound`: orderly parts move on, so every pair costs two
      characters of the text, and there can only be so many;
    * `of_separated_parsed`: a repetition that matches has read such a row,
      and one that cannot be continued;
    * `Orderly.separated`: the rounds it is given cover the distance to the
      end of the text, so a repetition of orderly parts is orderly. -/

namespace TruthExpr

variable {α β : Type}

namespace Parser

variable {p : Parser α} {q : Parser β} {c c₁ c₂ : Cursor} {k n : Nat}

/-! ## Rows of pairs -/

/-- An operand matches at `c` and `k` pairs of an operator and an operand
    match behind it, one after the other, up to the last cursor. -/
inductive Completes (p : Parser α) (q : Parser β) (c : Cursor) : Nat → Cursor → Prop where
  | first {x : α} {c₁ : Cursor} : p c = .parsed x c₁ → Completes p q c 0 c₁
  | pair {k : Nat} {c₁ c₂ c₃ : Cursor} {y : β} {x : α} : Completes p q c k c₁ →
      q c₁ = .parsed y c₂ → p c₂ = .parsed x c₃ → Completes p q c (k + 1) c₃

/-- The parts of a row are determined by its number of pairs. -/
theorem Completes.unique (h₁ : Completes p q c k c₁) (h₂ : Completes p q c k c₂) : c₁ = c₂ := by
  induction h₁ generalizing c₂ with
  | first hx =>
      obtain ⟨hx₂⟩ := h₂
      cases hx.symm.trans hx₂
      rfl
  | pair _ hy hx ih =>
      obtain - | ⟨hrow, hy₂, hx₂⟩ := h₂
      cases ih hrow
      cases hy.symm.trans hy₂
      cases hx.symm.trans hx₂
      rfl

/-- EVERY PAIR COSTS TWO CHARACTERS.  A row of orderly parts stays in its text
    and ends more than two positions for each pair further on. -/
theorem Completes.bound (hp : p.Orderly) (hq : q.Orderly) (h : Completes p q c k c₁) :
    c₁.text = c.text ∧ c.pos + 2 * k < c₁.pos ∧ c₁.pos ≤ c.text.size := by
  induction h with
  | first hx =>
      obtain ⟨htext, hlt, hle⟩ := hp.of_parsed hx
      exact ⟨htext, by omega, hle⟩
  | pair _ hy hx ih =>
      obtain ⟨htext, hlt, hle⟩ := ih
      obtain ⟨htext₁, hlt₁, hle₁⟩ := hq.of_parsed hy
      obtain ⟨htext₂, hlt₂, hle₂⟩ := hp.of_parsed hx
      rw [htext₁, htext] at htext₂ hle₂
      exact ⟨htext₂, by omega, hle₂⟩

/-! ## What the rounds come to -/

/-- Rounds that match behind a row of pairs make the row longer until it
    cannot be continued. -/
theorem of_rounds_parsed {items : List (α ⊕ β)} (h : p.rounds q n c₁ = .parsed items c₂)
    (hrow : Completes p q c k c₁) :
    ∃ m, items.length = 2 * m ∧ Completes p q c (k + m) c₂ ∧
      ∀ c₃, ¬ Completes p q c (k + m + 1) c₃ := by
  fun_induction rounds p q n c₁ generalizing k items with
  | case1 n c₁ f hy =>
      -- no operator, so no pair
      cases h
      refine ⟨0, rfl, hrow, ?_⟩
      rintro c₃ (- | ⟨hrow', hy', -⟩)
      cases hrow.unique hrow'
      cases hy.symm.trans hy'
  | case3 n c₁ y c₂ hy f hx =>
      -- an operator without its operand is no pair
      cases h
      refine ⟨0, rfl, hrow, ?_⟩
      rintro c₃ (- | ⟨hrow', hy', hx'⟩)
      cases hrow.unique hrow'
      cases hy.symm.trans hy'
      cases hx.symm.trans hx'
  | case2 | case4 | case5 => cases h
  | case6 c₁ y c₂ hy x c₃ hx n ih =>
      obtain ⟨rest, hrest, rfl⟩ := of_map_parsed h
      obtain ⟨m, hlen, hrow', hend⟩ := ih hrest (hrow.pair hy hx)
      have hk : k + 1 + m = k + (m + 1) := by omega
      rw [hk] at hrow' hend
      refine ⟨m + 1, ?_, hrow', hend⟩
      show rest.length + 1 + 1 = 2 * (m + 1)
      omega

/-- A repetition that matches has read an operand and a row of pairs that
    cannot be continued. -/
theorem of_separated_parsed {items : List (α ⊕ β)} (h : p.separated q c = .parsed items c₁) :
    ∃ k, items.length = 2 * k + 1 ∧ Completes p q c k c₁ ∧ ∀ c₂, ¬ Completes p q c (k + 1) c₂ := by
  obtain ⟨x, c₂, hx, hrest⟩ := of_bind_parsed h
  obtain ⟨rest, hrounds, rfl⟩ := of_map_parsed hrest
  obtain ⟨m, hlen, hrow, hend⟩ := of_rounds_parsed hrounds (.first hx)
  rw [Nat.zero_add] at hrow hend
  exact ⟨m, congrArg (· + 1) hlen, hrow, hend⟩

/-- Rounds never fail. -/
theorem rounds_ne_failed (p : Parser α) (q : Parser β) (n : Nat) (c : Cursor) (f : Failure) :
    p.rounds q n c ≠ .failed f := by
  fun_induction rounds p q n c with
  | case1 | case2 | case3 | case4 | case5 =>
      intro h
      cases h
  | case6 c₁ y c₂ hy x c₃ hx n ih =>
      intro h
      exact ih (of_map_failed h)

/-- A repetition fails just as its first operand does. -/
theorem of_separated_failed {f : Failure} (h : p.separated q c = .failed f) : p c = .failed f := by
  cases hp : p c with
  | parsed x c₁ =>
      rw [separated, bind_of_parsed hp] at h
      exact absurd (of_map_failed h) (rounds_ne_failed p q _ c₁ f)
  | failed g =>
      rw [separated, bind_of_failed hp] at h
      cases h
      rfl
  | aborted fault =>
      rw [separated, bind_of_aborted hp] at h
      cases h

/-! ## Repetitions of orderly parts -/

/-- Rounds that cover the distance to the end of the text are not used up. -/
theorem steady_rounds (hp : p.Orderly) (hq : q.Orderly) :
    ∀ (n : Nat) (c : Cursor), c.distance ≤ n → (p.rounds q n c).Steady c := by
  intro n c hn
  fun_induction rounds p q n c with
  | case1 | case3 => exact steady_succeed [] _
  | case2 n c fault hy => exact hq.of_aborted hy
  | case4 n c y c₁ hy fault hx => exact hp.of_aborted hx
  | case5 c y c₁ hy x c₂ hx =>
      -- a round has been read where nothing is ahead
      have := hq.distance_lt hy
      omega
  | case6 c y c₁ hy x c₂ hx n ih =>
      have hlt := hq.distance_lt hy
      have hlt₁ := hp.distance_lt hx
      obtain ⟨htext, hpos, hle⟩ := hq.of_parsed hy
      obtain ⟨htext₁, hpos₁, hle₁⟩ := hp.of_parsed hx
      rw [htext] at htext₁ hle₁
      have ho := ih (by omega)
      cases hr : p.rounds q n c₂ with
      | parsed items c₃ =>
          rw [hr] at ho
          obtain ⟨htext₂, hpos₂, hsize⟩ := ho
          rw [htext₁] at htext₂ hsize
          exact ⟨htext₂, by omega, fun _ => hsize hle₁⟩
      | failed f => exact absurd hr (rounds_ne_failed p q n c₂ f)
      | aborted fault =>
          rw [hr] at ho
          exact ho

theorem Orderly.separated (hp : p.Orderly) (hq : q.Orderly) : (p.separated q).Orderly :=
  hp.bind fun _ c => Outcome.Steady.map (steady_rounds hp hq _ c (Nat.le_refl _)) _

end Parser

end TruthExpr
