import TruthExpr.Parser.Recipe
import TruthExpr.Proofs.Allowance
import TruthExpr.Proofs.Choices
import TruthExpr.Proofs.Repetition

/-! # Plans — parsers of any nesting, and why their runs end

    A plan says how a parser is put together from literals that have a text,
    with any labels, rules, choices, repetitions and changes of values in any
    nesting.  Nothing in a repetition itself makes it end; what does is that
    every plan moves on when it matches, wherever it starts, be it before the
    text or past its end.  The route:

    * a parser FAILS AHEAD when none of its failures lies before the cursor it
      began at or, unless that cursor is past the end, behind the text.  A
      failed literal lies where it was tried, a merged failure where one of the
      alternatives failed (`position_of_choice`), and a repetition fails only
      where its first operand does;
    * `Plan.orderly`, `Plan.failsAhead` and `Plan.shallow`, by induction on
      the plan with one lemma for each combinator: matches move on, failures
      lie ahead, and there is no nesting to pay for;
    * `Starts` follows a run into its parts, and `Starts.ahead` says that
      they begin no earlier than the run does;
    * `always_progresses` puts the three together: a run ends with a match or
      a failure, both ahead of its start, and no repetition in it reads more
      pairs than there are characters;
    * `Recipe.exists_plan`: a recipe that keeps to the same combinators has the
      parser of a plan, so all of this is true of its runs as well. -/

namespace TruthExpr

open TruthExpr.Parser

variable {α β : Type}

/-! ## Parsers that fail ahead -/

namespace Parser

variable {p : Parser α} {q : Parser β}

/-- Every failure lies between the cursor and the end of the text, or at the
    cursor if that is past the end. -/
def FailsAhead (p : Parser α) : Prop :=
  ∀ c f, p c = .failed f → c.pos ≤ f.position ∧ f.position ≤ max c.pos c.text.size

/-- A literal fails where it is tried. -/
theorem failsAhead_labelled (text : String) (value : α) (label : String) :
    (labelled text value label).FailsAhead := by
  intro c f h
  rw [labelled] at h
  split at h
  · cases h
  · cases h
    exact ⟨Int.le_refl _, Int.le_max_left ..⟩

theorem FailsAhead.map (hp : p.FailsAhead) (f : α → β) : (Parser.map f p).FailsAhead :=
  fun c _ h => hp c _ (of_map_failed h)

/-- So does whatever has a label: the label forgets how far its parser came. -/
theorem failsAhead_label (name : String) (p : Parser α) : (Parser.label name p).FailsAhead := by
  intro c f h
  obtain ⟨f₁, -, rfl⟩ := of_mapFailure_failed h
  exact ⟨Int.le_refl _, Int.le_max_left ..⟩

/-- A frame says where the rule began, and leaves the position of the failure
    alone. -/
theorem FailsAhead.rule (hp : p.FailsAhead) (name : String) : (Parser.rule name p).FailsAhead := by
  intro c f h
  obtain ⟨f₁, hf₁, rfl⟩ := of_mapFailure_failed h
  exact hp c f₁ hf₁

/-- A choice fails where one of its alternatives did. -/
theorem failsAhead_choice {ps : List (Parser α)} (hps : ∀ p ∈ ps, p.FailsAhead) :
    (choice ps).FailsAhead := by
  intro c f h
  obtain ⟨p, hp, g, hg, hpos⟩ := position_of_choice h
  rw [hpos]
  exact hps p hp c g hg

/-- What follows the first operand of a repetition never makes it fail. -/
theorem FailsAhead.separated (hp : p.FailsAhead) (q : Parser β) : (p.separated q).FailsAhead :=
  fun c f h => hp c f (of_separated_failed h)

/-! ## Parsers that cannot be too deep -/

/-- No run is given up for want of allowance. -/
def Shallow (p : Parser α) : Prop := ∀ c, p c ≠ .aborted .nestedTooDeeply

/-- An orderly run can be given up for nothing else. -/
theorem Shallow.ne_aborted (h : p.Shallow) (hp : p.Orderly) (c : Cursor) (fault : Fault) :
    p c ≠ .aborted fault := by
  intro hab
  cases hp.of_aborted hab
  exact h c hab

/-- Literals have no depth to pay for. -/
theorem shallow_labelled (text : String) (value : α) (label : String) :
    (labelled text value label).Shallow := by
  intro c h
  rw [labelled] at h
  split at h <;> cases h

theorem Shallow.map (h : p.Shallow) (f : α → β) : (Parser.map f p).Shallow :=
  fun c hab => h c (of_map_aborted hab)

theorem Shallow.label (h : p.Shallow) (name : String) : (Parser.label name p).Shallow :=
  fun c hab => h c (of_mapFailure_aborted hab)

theorem Shallow.rule (h : p.Shallow) (name : String) : (Parser.rule name p).Shallow :=
  fun c hab => h c (of_mapFailure_aborted hab)

theorem shallow_choice {ps : List (Parser α)} (h : ∀ p ∈ ps, p.Shallow) : (choice ps).Shallow := by
  intro c hab
  obtain ⟨p, hp, hab⟩ := of_tryAll_aborted hab
  exact h p hp c hab

/-- And the rounds of a repetition in an operator or an operand. -/
theorem shallow_rounds (h : p.Shallow) (hq : q.Shallow) (n : Nat) : (p.rounds q n).Shallow := by
  intro c
  fun_induction rounds p q n c with
  | case1 | case3 | case5 =>
      intro hab
      cases hab
  | case2 n c fault hy =>
      intro hab
      cases hab
      exact hq c hy
  | case4 n c y c₁ hy fault hx =>
      intro hab
      cases hab
      exact h c₁ hx
  | case6 c y c₁ hy x c₂ hx n ih => exact fun hab => ih (of_map_aborted hab)

/-- A repetition adds its first operand to the rounds. -/
theorem Shallow.separated (h : p.Shallow) (hq : q.Shallow) : (p.separated q).Shallow := by
  intro c hab
  rcases of_bind_aborted hab with hab | ⟨x, c₁, -, hab⟩
  · exact h c hab
  · exact shallow_rounds h hq _ c₁ (of_map_aborted hab)

/-- A function that is never at fault changes values as a plain one does. -/
theorem tryMap_of_ok {g : α → Except Fault β} {f : α → β} (h : ∀ v, g v = .ok (f v))
    (p : Parser α) : Parser.tryMap g p = Parser.map f p := by
  funext c
  show (p c).tryMap g = (p c).map f
  cases p c with
  | parsed v c₁ => rw [Outcome.tryMap, h]; rfl
  | failed | aborted => rfl

end Parser

/-! ## Plans -/

/-- How a parser is put together from literals that are not empty.  A choice
    has at least one alternative, and a change of values gives a value for
    each. -/
inductive Plan : Type → Type 1 where
  | literal {α : Type} (text : String) (value : α) (name : String) (h : text ≠ "") : Plan α
  | map {α β : Type} (f : α → β) (part : Plan α) : Plan β
  | label {α : Type} (name : String) (part : Plan α) : Plan α
  | rule {α : Type} (name : String) (part : Plan α) : Plan α
  | choice {α : Type} {n : Nat} (alternatives : Fin (n + 1) → Plan α) : Plan α
  | separated {α β : Type} (operand : Plan α) (operator : Plan β) : Plan (List (α ⊕ β))

namespace Plan

/-- The parser of a plan. -/
def parser : {α : Type} → Plan α → Parser α
  | _, .literal text value name _ => .labelled text value name
  | _, .map f part => .map f part.parser
  | _, .label name part => .label name part.parser
  | _, .rule name part => .rule name part.parser
  | _, .choice alternatives => .choice (List.ofFn fun i => (alternatives i).parser)
  | _, .separated operand operator => .separated operand.parser operator.parser

/-- What holds of the parsers of all alternatives holds of those in the list
    that the choice is made from. -/
theorem forall_alternatives {n : Nat} {alternatives : Fin (n + 1) → Plan α}
    {motive : Parser α → Prop} (h : ∀ i, motive (alternatives i).parser) :
    ∀ p ∈ List.ofFn fun i => (alternatives i).parser, motive p := by
  intro p hp
  obtain ⟨i, rfl⟩ := List.mem_ofFn.mp hp
  exact h i

/-- By induction on the plan: a match keeps to the text and moves on. -/
theorem orderly (plan : Plan α) : plan.parser.Orderly := by
  induction plan with
  | literal text value name h =>
      have hlen : text.length ≠ 0 := fun h₀ => h (String.length_eq_zero_iff.mp h₀)
      exact orderly_labelled value name (Nat.pos_of_ne_zero hlen)
  | map f part ih => exact ih.map f
  | label name part ih => exact ih.label name
  | rule name part ih => exact ih.rule name
  | choice alternatives ih =>
      exact orderly_choice (forall_alternatives ih) (by simp)
  | separated operand operator ih ih₁ => exact ih.separated ih₁

/-- By induction on the plan: failures lie ahead. -/
theorem failsAhead (plan : Plan α) : plan.parser.FailsAhead := by
  induction plan with
  | literal text value name _ => exact failsAhead_labelled text value name
  | map f part ih => exact ih.map f
  | label name part ih => exact failsAhead_label name part.parser
  | rule name part ih => exact ih.rule name
  | choice alternatives ih => exact failsAhead_choice (forall_alternatives ih)
  | separated operand operator ih ih₁ => exact ih.separated operator.parser

/-- By induction on the plan: nothing is given up for its depth. -/
theorem shallow (plan : Plan α) : plan.parser.Shallow := by
  induction plan with
  | literal text value name _ => exact shallow_labelled text value name
  | map f part ih => exact ih.map f
  | label name part ih => exact ih.label name
  | rule name part ih => exact ih.rule name
  | choice alternatives ih => exact shallow_choice (forall_alternatives ih)
  | separated operand operator ih ih₁ => exact ih.separated ih₁

/-- So a run comes to a match that has moved on or to a failure that lies
    ahead. -/
theorem ends (plan : Plan α) (c : Cursor) :
    (∀ fault, plan.parser c ≠ .aborted fault) ∧
    (∀ x c₁, plan.parser c = .parsed x c₁ →
      c₁.text = c.text ∧ c.pos < c₁.pos ∧ c₁.pos ≤ c.text.size) ∧
    ∀ f, plan.parser c = .failed f →
      c.pos ≤ f.position ∧ f.position ≤ max c.pos c.text.size :=
  ⟨plan.shallow.ne_aborted plan.orderly c, fun _ _ => plan.orderly.of_parsed, plan.failsAhead c⟩

/-! ## The parts of a run -/

/-- A run of the first plan from the first cursor runs the second plan from
    the second cursor.  A choice runs an alternative when those before it have
    declined; a repetition runs an operator behind every pair it has read, and
    an operand behind every operator. -/
inductive Starts : {α β : Type} → Plan α → Cursor → Plan β → Cursor → Prop where
  | whole {α : Type} (plan : Plan α) (c : Cursor) : Starts plan c plan c
  | map {α β γ : Type} {part : Plan α} {inner : Plan γ} {c c₁ : Cursor} (f : α → β) :
      Starts part c inner c₁ → Starts (.map f part) c inner c₁
  | label {α γ : Type} {part : Plan α} {inner : Plan γ} {c c₁ : Cursor} (name : String) :
      Starts part c inner c₁ → Starts (.label name part) c inner c₁
  | rule {α γ : Type} {part : Plan α} {inner : Plan γ} {c c₁ : Cursor} (name : String) :
      Starts part c inner c₁ → Starts (.rule name part) c inner c₁
  | choice {α γ : Type} {n : Nat} {alternatives : Fin (n + 1) → Plan α} {inner : Plan γ}
      {c c₁ : Cursor} (i : Fin (n + 1)) : (∀ j < i, (alternatives j).parser.Declines c) →
      Starts (alternatives i) c inner c₁ → Starts (.choice alternatives) c inner c₁
  | operand {α β γ : Type} {operand : Plan α} {operator : Plan β} {inner : Plan γ}
      {c c₁ : Cursor} : Starts operand c inner c₁ → Starts (.separated operand operator) c inner c₁
  | operator {α β γ : Type} {operand : Plan α} {operator : Plan β} {inner : Plan γ} {k : Nat}
      {c c₁ c₂ : Cursor} : Completes operand.parser operator.parser c k c₁ →
      Starts operator c₁ inner c₂ → Starts (.separated operand operator) c inner c₂
  | laterOperand {α β γ : Type} {operand : Plan α} {operator : Plan β} {inner : Plan γ} {k : Nat}
      {c c₁ c₂ c₃ : Cursor} {y : β} : Completes operand.parser operator.parser c k c₁ →
      operator.parser c₁ = .parsed y c₂ → Starts operand c₂ inner c₃ →
      Starts (.separated operand operator) c inner c₃

/-- A part of a run keeps to the text and begins no earlier than the run. -/
theorem Starts.ahead {plan : Plan α} {part : Plan β} {c c₁ : Cursor}
    (h : plan.Starts c part c₁) : c₁.text = c.text ∧ c.pos ≤ c₁.pos := by
  induction h with
  | whole plan c => exact ⟨rfl, Int.le_refl _⟩
  | map _ _ ih | label _ _ ih | rule _ _ ih | choice _ _ _ ih | operand _ ih => exact ih
  | @operator _ _ _ operand operator _ k _ _ _ hrow _ ih =>
      obtain ⟨htext, hlt, -⟩ := hrow.bound operand.orderly operator.orderly
      obtain ⟨htext₁, hle⟩ := ih
      exact ⟨htext₁.trans htext, by omega⟩
  | @laterOperand _ _ _ operand operator _ k _ _ _ _ _ hrow hy _ ih =>
      obtain ⟨htext, hlt, -⟩ := hrow.bound operand.orderly operator.orderly
      obtain ⟨htext₁, hlt₁, -⟩ := operator.orderly.of_parsed hy
      obtain ⟨htext₂, hle⟩ := ih
      exact ⟨htext₂.trans (htext₁.trans htext), by omega⟩

/-! ## The bounds of a run -/

/-- A RUN ALWAYS ENDS AND MAKES PROGRESS.  Whatever the plan and wherever in or
    outside the text the run begins, it comes to a match or a failure.  Every
    repetition in it that matches has read its pairs in a row that could not
    be continued, and no such row has more pairs than there are characters
    between the start of the run and the end of the text.  A match keeps to
    the text and ends behind its start, a failure lies nowhere before it. -/
theorem always_progresses (plan : Plan α) (c : Cursor) :
    (∀ fault, plan.parser c ≠ .aborted fault) ∧
    (∀ {β γ : Type} (operand : Plan β) (operator : Plan γ) (c₁ : Cursor),
      plan.Starts c (.separated operand operator) c₁ →
      (∀ items c₂, operand.parser.separated operator.parser c₁ = .parsed items c₂ →
        ∃ k, items.length = 2 * k + 1 ∧ Completes operand.parser operator.parser c₁ k c₂ ∧
          ∀ c₃, ¬ Completes operand.parser operator.parser c₁ (k + 1) c₃) ∧
      ∀ k c₂, Completes operand.parser operator.parser c₁ k c₂ →
        (k : Int) ≤ max 0 (c.text.size - c.pos)) ∧
    (∀ x c₁, plan.parser c = .parsed x c₁ →
      c₁.text = c.text ∧ c.pos < c₁.pos ∧ c₁.pos ≤ c.text.size) ∧
    ∀ f, plan.parser c = .failed f →
      c.pos ≤ f.position ∧ f.position ≤ max c.pos c.text.size := by
  obtain ⟨hends, hmatch, hfail⟩ := plan.ends c
  refine ⟨hends, ?_, hmatch, hfail⟩
  intro β γ operand operator c₁ hstarts
  refine ⟨fun items c₂ h => of_separated_parsed h, ?_⟩
  intro k c₂ hrow
  obtain ⟨htext, hle⟩ := hstarts.ahead
  obtain ⟨-, hlt, hsize⟩ := hrow.bound operand.orderly operator.orderly
  rw [htext] at hsize
  omega

/-- Begun one place before the text, a repetition reads the last character as
    its first operand, and then the text from its beginning. -/
theorem always_progresses_before_text :
    ∃ (a : Plan Char) (comma : Plan Unit) (c₁ : Cursor),
      a.parser.separated comma.parser ⟨#[',', 'a'], -1⟩ =
        .parsed [.inl 'a', .inr (), .inl 'a'] c₁ ∧
      Completes a.parser comma.parser ⟨#[',', 'a'], -1⟩ 1 c₁ ∧ (1 : Int) ≤ max 0 (2 - -1) := by
  let a : Plan Char := .literal "a" 'a' "a" (by decide)
  let comma : Plan Unit := .literal "," () "," (by decide)
  let c : Cursor := ⟨#[',', 'a'], -1⟩
  have hrow : Completes a.parser comma.parser c 1 ⟨#[',', 'a'], 2⟩ := .pair (.first rfl) rfl rfl
  have hloops := (always_progresses (.separated a comma) c).2.1 a comma c (.whole _ c)
  exact ⟨a, comma, _, rfl, hrow, hloops.2 1 _ hrow⟩

end Plan

/-! ## Recipes -/

namespace Recipe

/-- The recipe keeps to what plans are made of: literals that have a text,
    choices among at least one alternative, and changes that can be made to any
    value. -/
inductive Planned : Recipe → Prop where
  | literal {text : String} (value : Json) (name : String) :
      text ≠ "" → Planned (.literal text value name)
  | choice {alternatives : List Recipe} : alternatives ≠ [] →
      (∀ part ∈ alternatives, Planned part) → Planned (.choice alternatives)
  | label {part : Recipe} (name : String) : Planned part → Planned (.label name part)
  | rule {part : Recipe} (name : String) : Planned part → Planned (.rule name part)
  | separated {operand operator : Recipe} :
      Planned operand → Planned operator → Planned (.separated operand operator)
  | change {how : Change} {part : Recipe} :
      how ≠ .fold → Planned part → Planned (.change how part)

theorem parsers_eq (parts : List Recipe) : parsers parts = parts.map parser := by
  induction parts with
  | nil => rfl
  | cons part parts ih => rw [parsers, ih, List.map_cons]

/-- A change that is no fold gives a value for each. -/
theorem exists_apply_eq {how : Change} (h : how ≠ .fold) :
    ∃ f : Value → Value, ∀ v, how.apply v = .ok (f v) := by
  cases how with
  | fold => exact absurd rfl h
  | wrap | literal | not | const => exact ⟨_, fun _ => rfl⟩

/-- The parser of such a recipe is the parser of a plan. -/
theorem exists_plan {recipe : Recipe} (h : recipe.Planned) :
    ∃ plan : Plan Value, plan.parser = recipe.parser := by
  induction h with
  | @literal text value name hne =>
      refine ⟨.literal text (.data value) (if name = "" then quotedLabel text else name) hne, ?_⟩
      rw [parser]
      rfl
  | @choice alternatives hne _ ih =>
      obtain ⟨first, rest, rfl⟩ := List.exists_cons_of_ne_nil hne
      obtain ⟨plans, hplans⟩ := Classical.skolem.mp fun i : Fin (rest.length + 1) =>
        ih (first :: rest)[i] (List.getElem_mem _)
      have hparsers : (List.ofFn fun i => (plans i).parser) = (first :: rest).map parser := by
        refine List.ext_getElem (by simp) fun i _ _ => ?_
        rw [List.getElem_ofFn, hplans, List.getElem_map]
        rfl
      refine ⟨.choice plans, ?_⟩
      rw [parser, parsers_eq, ← hparsers]
      rfl
  | label name _ ih =>
      obtain ⟨plan, hplan⟩ := ih
      exact ⟨.label name plan, by rw [parser, ← hplan]; rfl⟩
  | rule name _ ih =>
      obtain ⟨plan, hplan⟩ := ih
      exact ⟨.rule name plan, by rw [parser, ← hplan]; rfl⟩
  | separated _ _ ih ih₁ =>
      obtain ⟨operand, hoperand⟩ := ih
      obtain ⟨operator, hoperator⟩ := ih₁
      refine ⟨.map Value.ofItems (.separated operand operator), ?_⟩
      rw [parser, ← hoperand, ← hoperator]
      rfl
  | change hfold _ ih =>
      obtain ⟨plan, hplan⟩ := ih
      obtain ⟨f, hf⟩ := exists_apply_eq hfold
      exact ⟨.map f plan, by rw [parser, ← hplan, tryMap_of_ok hf]; rfl⟩

/-- RECIPES END: a run of such a recipe comes to a match or a failure.  A match
    keeps to the text and ends behind its start, a failure lies nowhere before
    it. -/
theorem Planned.ends {recipe : Recipe} (h : recipe.Planned) (c : Cursor) :
    (∀ fault, recipe.parser c ≠ .aborted fault) ∧
    (∀ v c₁, recipe.parser c = .parsed v c₁ →
      c₁.text = c.text ∧ c.pos < c₁.pos ∧ c₁.pos ≤ c.text.size) ∧
    ∀ f, recipe.parser c = .failed f →
      c.pos ≤ f.position ∧ f.position ≤ max c.pos c.text.size := by
  obtain ⟨plan, hplan⟩ := exists_plan h
  rw [← hplan]
  exact plan.ends c

end Recipe

end TruthExpr
