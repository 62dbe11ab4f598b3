import TruthExpr.Proofs.Spelling

/-! # Viable beginnings — texts that more text can make a sentence

    Which rows of tokens can go on to a sentence?  Just those in which every
    token is ADMITTED by the ones before it: operands and operators take
    turns, and no parenthesis is closed that is not open.  The route:

    * `Tracks`: what the machine knows is what can be read off its tokens,
      namely what is wanted and how many parentheses are open.  Every step
      keeps it, so the machine takes just the admitted tokens
      (`isSome_step`);
    * `completes`: whatever the machine has taken, it can be brought to an
      end, by an operand if one is wanted and by closing what is open;
    * `viable_iff`, `viable_spell_iff`: so the viable beginnings are what the
      machine takes, and are the rows of admitted tokens. -/

namespace TruthExpr

namespace Token

/-- The token is an operand or the end of one. -/
def endsOperand : Token → Bool
  | .trueWord | .falseWord | .closing => true
  | _ => false

end Token

/-- An operand is wanted at the beginning, and behind every token that does
    not end one. -/
def operandDue (ts : List Token) : Bool := !(ts.getLast?.any Token.endsOperand)

/-- Only the last token counts. -/
theorem operandDue_concat (ts : List Token) (t : Token) :
    operandDue (ts ++ [t]) = !t.endsOperand := by
  rw [operandDue, List.getLast?_concat]
  rfl

/-- The token may follow the others: where an operand is due, one has to
    begin, and where none is, only a parenthesis that is open can be closed. -/
def admits (ts : List Token) : Token → Bool
  | .trueWord | .falseWord | .bang | .opening => operandDue ts
  | .andSign | .orSign => !operandDue ts
  | .closing => !operandDue ts && decide (ts.count .closing < ts.count .opening)

/-- Every token may follow the ones before it. -/
def Fluent (ts : List Token) : Prop := ∀ us t, us ++ [t] <+: ts → admits us t = true

/-- Whole tokens that can be extended to a sentence. -/
def Viable (s : List Char) : Prop := (∃ ts, s = spell ts) ∧ ∃ t, Sentence (s ++ t)

/-- The longest viable beginning of `s` has `n` characters. -/
structure LongestViable (s : List Char) (n : Nat) : Prop where
  within : n ≤ s.length
  viable : Viable (s.take n)
  longest : ∀ t, t <+: s → Viable t → t.length ≤ n

/-- There is one longest prefix that can be continued. -/
theorem LongestViable.unique {s : List Char} {n k : Nat} (hn : LongestViable s n)
    (hk : LongestViable s k) : n = k := by
  have h₁ := hk.longest _ (List.take_prefix n s) hn.viable
  have h₂ := hn.longest _ (List.take_prefix k s) hk.viable
  rw [List.length_take_of_le hn.within] at h₁
  rw [List.length_take_of_le hk.within] at h₂
  omega

namespace Machine

variable {stack : List Open} {e : Expr} {m m₁ : Machine} {t : Token} {ts : List Token}
  {u : List Char}

/-! ## The machine takes what the tokens before admit -/

/-- The machine wants an operand. -/
def atOperand : Machine → Bool
  | .wantsOperand _ => true
  | .wantsOperator _ _ => false

/-- An operand that is closed takes its signs off the stack and leaves every
    group open. -/
theorem closeOperand_stack :
    ∀ (stack : List Open) (e : Expr), ∃ x rest, closeOperand e stack = .wantsOperator x rest ∧
      rest.length ≤ stack.length ∧ rest.count .group = stack.count .group := by
  intro stack
  induction stack with
  | nil => intro e; exact ⟨e, [], rfl, Nat.le_refl _, rfl⟩
  | cons o stack ih =>
      intro e
      cases o with
      | negation =>
          obtain ⟨x, rest, hclose, hle, hcount⟩ := ih (.not e)
          exact ⟨x, rest, hclose, Nat.le_succ_of_le hle, by simpa using hcount⟩
      | group => exact ⟨e, _, rfl, Nat.le_refl _, rfl⟩
      | andWith l => exact ⟨.and l e, stack, rfl, Nat.le_succ _, by simp⟩
      | orWith l => exact ⟨e, _, rfl, Nat.le_refl _, rfl⟩

/-- An operand closes no parenthesis. -/
theorem closeOperand_keeps (e : Expr) (stack : List Open) :
    (closeOperand e stack).atOperand = false ∧
      (closeOperand e stack).stack.count .group = stack.count .group := by
  obtain ⟨x, rest, hclose, -, hcount⟩ := closeOperand_stack stack e
  rw [hclose]
  exact ⟨rfl, hcount⟩

theorem closeTerm_stack (e : Expr) (stack : List Open) :
    (closeTerm e stack).2.length ≤ stack.length ∧
      (closeTerm e stack).2.count .group = stack.count .group := by
  cases stack with
  | nil => exact ⟨Nat.le_refl _, rfl⟩
  | cons o stack =>
      cases o with
      | orWith l => exact ⟨Nat.le_succ _, by simp [closeTerm]⟩
      | negation => exact ⟨Nat.le_refl _, rfl⟩
      | group => exact ⟨Nat.le_refl _, rfl⟩
      | andWith l => exact ⟨Nat.le_refl _, rfl⟩

/-- What the machine knows of the tokens that it has taken. -/
structure Tracks (m : Machine) (ts : List Token) : Prop where
  holds : m.Holds (spell ts)
  wants : m.atOperand = operandDue ts
  groups : m.stack.count .group + ts.count .closing = ts.count .opening

theorem tracks_start : Tracks start [] := ⟨Explains.nil, rfl, rfl⟩

/-- A complete chain lies on a parenthesis or on nothing. -/
theorem closeTerm_eq (h : (wantsOperator e stack).Holds u) :
    ∃ x, closeTerm e stack = (x, []) ∧ stack.count .group = 0 ∨
      ∃ rest, closeTerm e stack = (x, .group :: rest) ∧
        stack.count .group = rest.count .group + 1 ∧ rest.length < stack.length := by
  obtain ⟨v, s, -, hv, hterm, hd⟩ := h
  obtain ⟨-, -, -, -, hexpr, -⟩ := closeTerm_holds hv hterm hd
  obtain ⟨hle, hcount⟩ := closeTerm_stack e stack
  rcases hc : closeTerm e stack with ⟨x, stack₁⟩
  rw [hc] at hexpr hle hcount
  refine ⟨x, ?_⟩
  cases stack₁ with
  | nil => exact Or.inl ⟨rfl, hcount.symm⟩
  | cons o rest =>
      cases o with
      | group =>
          refine Or.inr ⟨rest, rfl, ?_, hle⟩
          rw [← hcount, List.count_cons_self]
      | negation => exact hexpr.elim
      | andWith l => exact hexpr.elim
      | orWith l => exact hexpr.elim

/-- The machine takes a token just if the tokens so far admit it. -/
theorem isSome_step (h : m.Tracks ts) (t : Token) : (m.step t).isSome = admits ts t := by
  have hwants := h.wants
  cases m with
  | wantsOperand stack =>
      change true = operandDue ts at hwants
      cases t <;> simp only [admits, ← hwants] <;> rfl
  | wantsOperator e stack =>
      change false = operandDue ts at hwants
      have hgroups := h.groups
      change stack.count .group + ts.count .closing = ts.count .opening at hgroups
      cases t with
      | closing =>
          simp only [admits, ← hwants, Bool.not_false, Bool.true_and]
          obtain ⟨x, ⟨hc, hcount⟩ | ⟨rest, hc, hcount, -⟩⟩ := closeTerm_eq h.holds
          · have hnone : (wantsOperator e stack).step .closing = none := by simp [step, hc]
            rw [hnone]
            symm
            show decide (ts.count .closing < ts.count .opening) = false
            rw [decide_eq_false_iff_not]
            omega
          · rw [step_closing_iff.mpr ⟨x, rest, hc, rfl⟩]
            symm
            show decide (ts.count .closing < ts.count .opening) = true
            rw [decide_eq_true_eq]
            omega
      | andSign | orSign | trueWord | falseWord | bang | opening =>
          simp only [admits, ← hwants]
          rfl

/-- A step does to the machine what its token does to the tokens. -/
theorem step_keeps (h : m.Tracks ts) (hstep : m.step t = some m₁) :
    m₁.atOperand = !t.endsOperand ∧
      m₁.stack.count .group + [t].count .closing = m.stack.count .group + [t].count .opening := by
  cases m with
  | wantsOperand stack =>
      cases t with
      | trueWord =>
          cases hstep
          exact closeOperand_keeps (.literal true) stack
      | falseWord =>
          cases hstep
          exact closeOperand_keeps (.literal false) stack
      | bang | opening =>
          cases hstep
          exact ⟨rfl, by simp [Machine.stack]⟩
      | closing | orSign | andSign => cases hstep
  | wantsOperator e stack =>
      cases t with
      | closing =>
          obtain ⟨x, rest, hc, rfl⟩ := step_closing_iff.mp hstep
          obtain ⟨x₁, ⟨hc₁, -⟩ | ⟨rest₁, hc₁, hcount₁, -⟩⟩ := closeTerm_eq h.holds
          · rw [hc] at hc₁
            cases hc₁
          · rw [hc] at hc₁
            cases hc₁
            obtain ⟨hwants, hcount⟩ := closeOperand_keeps x rest
            refine ⟨hwants, ?_⟩
            show _ + 1 = stack.count .group + 0
            omega
      | andSign =>
          cases hstep
          exact ⟨rfl, by simp [Machine.stack]⟩
      | orSign =>
          cases hstep
          refine ⟨rfl, ?_⟩
          show (.orWith _ :: (closeTerm e stack).2 : List Open).count .group + 0 =
            stack.count .group + 0
          rw [List.count_cons_of_ne (by simp), (closeTerm_stack e stack).2]
      | trueWord | falseWord | bang | opening => cases hstep

theorem step_tracks (h : m.Tracks ts) (hstep : m.step t = some m₁) : m₁.Tracks (ts ++ [t]) := by
  obtain ⟨hwants, hcount⟩ := step_keeps h hstep
  have hgroups := h.groups
  refine ⟨?_, ?_, ?_⟩
  · rw [spell_append, spell_singleton]
    exact step_holds h.holds hstep
  · rw [operandDue_concat]
    exact hwants
  · rw [List.count_append, List.count_append]
    omega

/-- So do several, by induction on them. -/
theorem feed_tracks :
    ∀ (us : List Token) {ts : List Token} {m m₁ : Machine},
      m.Tracks ts → m.feed us = some m₁ → m₁.Tracks (ts ++ us) := by
  intro us
  induction us with
  | nil =>
      intro ts m m₁ h hfeed
      cases hfeed
      rw [List.append_nil]
      exact h
  | cons t us ih =>
      intro ts m m₁ h hfeed
      obtain ⟨m₂, hstep, hrest⟩ := Option.bind_eq_some_iff.mp hfeed
      have htracks := ih (step_tracks h hstep) hrest
      rw [List.append_assoc] at htracks
      exact htracks

/-- The machine takes further tokens just if each is admitted in its turn. -/
theorem feed_iff :
    ∀ (us : List Token) {ts : List Token} {m : Machine}, m.Tracks ts →
      ((∃ m₁, m.feed us = some m₁) ↔ ∀ vs t, vs ++ [t] <+: us → admits (ts ++ vs) t = true) := by
  intro us
  induction us with
  | nil =>
      intro ts m _
      constructor
      · rintro - vs t hpre
        exact absurd (List.prefix_nil.mp hpre) (by simp)
      · intro _
        exact ⟨m, rfl⟩
  | cons t us ih =>
      intro ts m h
      have hadmits := isSome_step h t
      cases hstep : m.step t with
      | none =>
          rw [hstep] at hadmits
          constructor
          · rintro ⟨m₁, hfeed⟩
            obtain ⟨m₂, hstep₂, -⟩ := Option.bind_eq_some_iff.mp hfeed
            rw [hstep] at hstep₂
            cases hstep₂
          · intro hall
            have ht := hall [] t (by simp)
            rw [List.append_nil, ← hadmits] at ht
            cases ht
      | some m₂ =>
          rw [hstep] at hadmits
          rw [feed_of_step hstep, ih (step_tracks h hstep)]
          constructor
          · rintro hall vs x hpre
            cases vs with
            | nil =>
                obtain ⟨rfl, -⟩ := List.cons_prefix_cons.mp hpre
                rw [List.append_nil]
                exact hadmits.symm
            | cons v vs =>
                obtain ⟨rfl, hpre₁⟩ := List.cons_prefix_cons.mp hpre
                have hx := hall vs x hpre₁
                rw [List.append_assoc] at hx
                exact hx
          · intro hall vs x hpre
            rw [List.append_assoc]
            exact hall (t :: vs) x (List.cons_prefix_cons.mpr ⟨rfl, hpre⟩)

/-- From its start, the machine takes just the fluent rows of tokens. -/
theorem feed_start_iff (ts : List Token) : (∃ m, start.feed ts = some m) ↔ Fluent ts :=
  feed_iff ts tracks_start

/-! ## Whatever has been taken can be brought to an end -/

/-- Behind an operand, what is open can be closed: the induction is on the
    height of the stack, and each parenthesis lowers it. -/
theorem completes_operator :
    ∀ (n : Nat) {stack : List Open} {e : Expr} {u : List Char}, stack.length ≤ n →
      (wantsOperator e stack).Holds u →
      ∃ ts m x, (wantsOperator e stack).feed ts = some m ∧ m.finish = some x := by
  intro n
  induction n with
  | zero =>
      intro stack e u hlen h
      obtain ⟨x, ⟨hc, -⟩ | ⟨rest, -, -, hlt⟩⟩ := closeTerm_eq h
      · exact ⟨[], _, x, rfl, finish_iff.mpr hc⟩
      · omega
  | succ n ih =>
      intro stack e u hlen h
      obtain ⟨x, ⟨hc, -⟩ | ⟨rest, hc, -, hlt⟩⟩ := closeTerm_eq h
      · exact ⟨[], _, x, rfl, finish_iff.mpr hc⟩
      · -- one more parenthesis closes the innermost group
        have hstep := step_closing_iff.mpr ⟨x, rest, hc, rfl⟩
        have hholds := step_holds h hstep
        obtain ⟨y, rest₁, hclose, hle, -⟩ := closeOperand_stack rest x
        rw [hclose] at hstep hholds
        obtain ⟨ts, m, z, hfeed, hfin⟩ := ih (by omega) hholds
        exact ⟨.closing :: ts, m, z, (feed_of_step hstep ts).trans hfeed, hfin⟩

/-- So whatever the machine has read can be completed to a sentence. -/
theorem completes (h : m.Holds u) : ∃ ts m₁ x, m.feed ts = some m₁ ∧ m₁.finish = some x := by
  cases m with
  | wantsOperator e stack => exact completes_operator stack.length (Nat.le_refl _) h
  | wantsOperand stack =>
      have hstep : (wantsOperand stack).step .trueWord =
          some (closeOperand (.literal true) stack) := rfl
      have hholds := step_holds h hstep
      obtain ⟨x, rest, hclose, -, -⟩ := closeOperand_stack stack (.literal true)
      rw [hclose] at hholds hstep
      obtain ⟨ts, m, z, hfeed, hfin⟩ := completes_operator rest.length (Nat.le_refl _) hholds
      exact ⟨.trueWord :: ts, m, z, (feed_of_step hstep ts).trans hfeed, hfin⟩

end Machine

open Machine in
/-- A text is viable when the machine takes it, token by token. -/
theorem viable_iff {s : List Char} :
    Viable s ↔ ∃ ts m, s = spell ts ∧ Machine.start.feed ts = some m := by
  constructor
  · rintro ⟨⟨ts, rfl⟩, t, e, he⟩
    obtain ⟨us, m, hspell, hfeed, -⟩ := (read_ok_iff _ e).mp ((read_eq_ok_iff _ e).mpr he)
    -- the sentence begins with the same tokens
    obtain ⟨vs, rfl, -⟩ := spell_prefix hspell
    rw [feed_bind] at hfeed
    obtain ⟨m₁, hts, -⟩ := Option.bind_eq_some_iff.mp hfeed
    exact ⟨ts, m₁, rfl, hts⟩
  · rintro ⟨ts, m, rfl, hfeed⟩
    have htracks := feed_tracks ts tracks_start hfeed
    obtain ⟨vs, m₁, x, hvs, hfin⟩ := completes htracks.holds
    refine ⟨⟨ts, rfl⟩, spell vs, x, (read_eq_ok_iff _ x).mp ((read_ok_iff _ x).mpr ?_)⟩
    refine ⟨ts ++ vs, m₁, (spell_append ts vs).symm, ?_, hfin⟩
    rw [feed_bind, hfeed]
    exact hvs

/-- The viable texts are the fluent rows of tokens. -/
theorem viable_spell_iff {ts : List Token} : Viable (spell ts) ↔ Fluent ts := by
  rw [viable_iff, ← Machine.feed_start_iff]
  constructor
  · rintro ⟨us, m, hspell, hfeed⟩
    rw [spell_injective hspell]
    exact ⟨m, hfeed⟩
  · rintro ⟨m, hfeed⟩
    exact ⟨ts, m, rfl, hfeed⟩

end TruthExpr
