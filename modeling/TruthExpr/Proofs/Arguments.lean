import TruthExpr.CommandLine.Report

/-! # Arguments — what options and expressions come to on a command line

    A word that does not begin with a dash is an expression wherever it stands,
    unless the option before it takes it as its value.  So options may stand
    before and behind the expressions, as long as these stay together.  The
    route:

    * `classifies_append`: words are classified one by one;
    * `gather_choices` and `gather_texts`: options change the settings, in
      order, and expressions are kept as they are;
    * `run_arguments`: the run reports on the expressions under the settings
      that the options come to. -/

namespace TruthExpr

namespace CommandLine

/-- An option, as it is chosen by a user. -/
inductive Choice where
  | engine (engine : Engine)
  | json
  | verbose
deriving DecidableEq, Repr

/-- The words that make a choice. -/
def Choice.texts : Choice → List String
  | .engine e => ["--engine", e.name]
  | .json => ["--json"]
  | .verbose => ["-v"]

/-- What these words are. -/
def Choice.words : Choice → List Word
  | .engine e => [.option "--engine" ⟨.engine, false, none⟩, .operand e.name]
  | .json => [.option "--json" ⟨.json, false, none⟩]
  | .verbose => [.option "-v" ⟨.verbose, true, none⟩]

/-- The settings after one more choice; of two engines the later one counts. -/
def Settings.choose (s : Settings) : Choice → Settings
  | .engine engine => { s with engine }
  | .json => { s with json := true }
  | .verbose => { s with verbose := true }

/-- The settings that choices come to. -/
def settingsOf (choices : List Choice) : Settings := choices.foldl Settings.choose {}

/-- JSON is printed exactly if it was chosen somewhere. -/
theorem foldl_choose_json (choices : List Choice) :
    ∀ s : Settings, (choices.foldl Settings.choose s).json = true ↔
      s.json = true ∨ Choice.json ∈ choices := by
  induction choices with
  | nil => intro s; simp
  | cons c choices ih =>
      intro s
      rw [List.foldl_cons, ih, List.mem_cons]
      cases c <;> simp [Settings.choose]

theorem settingsOf_json (choices : List Choice) :
    (settingsOf choices).json = true ↔ Choice.json ∈ choices := by
  rw [settingsOf, foldl_choose_json]
  exact or_iff_right Bool.false_ne_true

/-- A command line: expressions with options before and behind them. -/
def arguments (front : List Choice) (texts : List String) (back : List Choice) : List String :=
  front.flatMap Choice.texts ++ texts ++ back.flatMap Choice.texts

/-- The text does not look like an option. -/
def IsOperand (text : String) : Prop := text.toList.head? ≠ some '-'

instance (text : String) : Decidable (IsOperand text) :=
  inferInstanceAs (Decidable (text.toList.head? ≠ some '-'))

/-! ## Classification -/

namespace Word

variable {texts more : List String} {words : List Word}

/-- The texts are the words, whatever follows them. -/
def Classifies (texts : List String) (words : List Word) : Prop :=
  ∀ more, classifyAll (texts ++ more) = (classifyAll more).map (words ++ ·)

theorem classifies_nil : Classifies [] [] := by
  intro more
  show classifyAll more = (classifyAll more).map id
  cases classifyAll more <;> rfl

/-- Arguments are told apart one by one, so two rows can be put together. -/
theorem classifies_append {texts₁ : List String} {words₁ : List Word} (h : Classifies texts words)
    (h₁ : Classifies texts₁ words₁) : Classifies (texts ++ texts₁) (words ++ words₁) := by
  intro more
  rw [List.append_assoc, h, h₁]
  cases classifyAll more with
  | error why => rfl
  | ok rest => exact congrArg Except.ok (List.append_assoc ..).symm

theorem classifies_singleton {text : String} {word : Word} (hsep : text ≠ "--")
    (h : classify text = .ok word) : Classifies [text] [word] := by
  intro more
  show classifyAll (text :: more) = _
  rw [classifyAll, if_neg hsep, h]
  cases classifyAll more <;> rfl

/-- A text that does not begin with a dash is an operand. -/
theorem classifies_operand {text : String} (h : IsOperand text) :
    Classifies [text] [.operand text] := by
  refine classifies_singleton ?_ ?_
  · rintro rfl
    exact h rfl
  · rw [classify]
    cases hs : text.toList with
    | nil => rfl
    | cons x s =>
        have hx : x ≠ '-' := by
          rintro rfl
          exact h (by rw [hs]; rfl)
        split
        · next heq => exact absurd (List.cons.inj heq).1 hx
        · rfl

theorem classifies_choice (c : Choice) : Classifies c.texts c.words := by
  cases c with
  | engine e =>
      have hname : IsOperand e.name := by cases e <;> decide
      have hengine : Classifies ["--engine"] [.option "--engine" ⟨.engine, false, none⟩] :=
        classifies_singleton (by decide) rfl
      exact classifies_append hengine (classifies_operand hname)
  | json => exact classifies_singleton (by decide) rfl
  | verbose => exact classifies_singleton (by decide) rfl

theorem classifies_choices (choices : List Choice) :
    Classifies (choices.flatMap Choice.texts) (choices.flatMap Choice.words) := by
  induction choices with
  | nil => exact classifies_nil
  | cons c choices ih => exact classifies_append (classifies_choice c) ih

/-- What does not look like an option is an operand. -/
theorem classifies_texts (h : ∀ text ∈ texts, IsOperand text) :
    Classifies texts (texts.map .operand) := by
  induction texts with
  | nil => exact classifies_nil
  | cons text texts ih =>
      obtain ⟨hhead, hrest⟩ := List.forall_mem_cons.mp h
      exact classifies_append (classifies_operand hhead) (ih hrest)

end Word

/-! ## What is gathered -/

namespace Gathered

/-- What has been gathered after one more choice. -/
def choose (g : Gathered) (c : Choice) : Gathered :=
  { g with settings := g.settings.choose c, collecting := false }

/-- Choices change the settings, and no more than that. -/
theorem foldl_choose (choices : List Choice) :
    ∀ g : Gathered, (choices.foldl choose g).settings = choices.foldl Settings.choose g.settings ∧
      (choices.foldl choose g).expressions = g.expressions ∧
      (choices.foldl choose g).surplus = g.surplus ∧
      (choices.foldl choose g).engineDropped = g.engineDropped := by
  induction choices with
  | nil => intro g; exact ⟨rfl, rfl, rfl, rfl⟩
  | cons c choices ih => intro g; exact ih (g.choose c)

/-- Operands that have an option behind them are kept in order. -/
theorem foldl_addOperand (g : Gathered) (texts : List String) :
    ∀ kept : List String,
      texts.foldl addOperand { g with expressions := some kept, collecting := true } =
        { g with expressions := some (kept ++ texts), collecting := true } := by
  induction texts with
  | nil => intro kept; rw [List.append_nil]; rfl
  | cons text texts ih =>
      intro kept
      rw [List.append_cons]
      exact ih (kept ++ [text])

/-- Nothing is left behind the last option. -/
theorem addTail_nil (g : Gathered) : g.addTail [] = g := by
  obtain ⟨settings, expressions, collecting, surplus, dropped⟩ := g
  cases expressions <;> simp [addTail]

end Gathered

variable {g : Gathered} {texts : List String}

theorem gather_choice (c : Choice) (rest : List Word) (h : g.engineDropped = false) :
    gather (c.words ++ rest) g = gather rest (g.choose c) := by
  cases c with
  | engine e =>
      show (do gather rest (← { g with collecting := false }.applyEngine e.name)) = _
      have happly : { g with collecting := false }.applyEngine e.name =
          .ok (g.choose (.engine e)) := by
        rw [Gathered.choose, Gathered.applyEngine, ← h]
        cases e <;> rfl
      rw [happly]
      rfl
  | json => rfl
  | verbose => rfl

/-- Choices are made in order, whatever follows them. -/
theorem gather_choices (choices : List Choice) (rest : List Word) :
    ∀ {g : Gathered}, g.engineDropped = false →
      gather (choices.flatMap Choice.words ++ rest) g =
        gather rest (choices.foldl Gathered.choose g) := by
  induction choices with
  | nil => intro g _; rfl
  | cons c choices ih =>
      intro g h
      rw [List.flatMap_cons, List.append_assoc, gather_choice c _ h]
      exact ih h

/-- Operands are kept as long as an option is still to come. -/
theorem gather_operands {rest : List Word} (hrest : rest.any Word.isOption = true) :
    ∀ {g : Gathered}, gather (texts.map .operand ++ rest) g =
      gather rest (texts.foldl Gathered.addOperand g) := by
  induction texts with
  | nil => intro g; rfl
  | cons text texts ih =>
      intro g
      show (if ((texts.map Word.operand ++ rest).any Word.isOption) then _ else _) = _
      rw [if_pos (by rw [List.any_append, hrest, Bool.or_true])]
      exact ih

/-- Behind the last option, all that is left is taken at once. -/
theorem gather_last (hne : texts ≠ []) (h : g.expressions = none) :
    gather (texts.map .operand) g = .ok { g with expressions := some texts } := by
  obtain ⟨text, rest, rfl⟩ := List.exists_cons_of_ne_nil hne
  have hnone : (rest.map Word.operand).any Word.isOption = false := by
    rw [List.any_map, List.any_eq_false]
    intro text _
    exact Bool.false_ne_true
  have hall : ∀ ts : List String, (ts.map Word.operand).filterMap Word.operand? = ts := by
    intro ts
    rw [List.filterMap_map]
    exact List.filterMap_some
  show (if ((rest.map Word.operand).any Word.isOption) then _ else _) = _
  rw [if_neg (by rw [hnone]; exact Bool.false_ne_true)]
  show Except.ok (g.addTail ((text :: rest).map Word.operand)) = _
  rw [Gathered.addTail, h, hall]

/-- Expressions between options are kept as they are, and the options behind
    them still count. -/
theorem gather_texts (back : List Choice) (hne : texts ≠ []) (h : g.expressions = none)
    (hdrop : g.engineDropped = false) (hsurplus : g.surplus = []) :
    ∃ g₁, gather (texts.map .operand ++ back.flatMap Choice.words) g = .ok g₁ ∧
      g₁.settings = back.foldl Settings.choose g.settings ∧ g₁.expressions = some texts ∧
      g₁.surplus = [] ∧ g₁.engineDropped = false := by
  cases back with
  | nil =>
      rw [List.flatMap_nil, List.append_nil, gather_last hne h]
      exact ⟨_, rfl, rfl, rfl, hsurplus, hdrop⟩
  | cons c back =>
      have hoption : ((c :: back).flatMap Choice.words).any Word.isOption = true := by
        cases c <;> rfl
      obtain ⟨text, rest, rfl⟩ := List.exists_cons_of_ne_nil hne
      have hfirst : g.addOperand text =
          { g with expressions := some [text], collecting := true } := by
        rw [Gathered.addOperand, h]
      have hkept := Gathered.foldl_addOperand g rest [text]
      rw [← hfirst] at hkept
      have hrun := gather_choices (c :: back) []
        (g := { g with expressions := some ([text] ++ rest), collecting := true }) hdrop
      rw [List.append_nil] at hrun
      rw [gather_operands hoption, List.foldl_cons, hkept, hrun]
      refine ⟨_, congrArg Except.ok (Gathered.addTail_nil _), ?_⟩
      obtain ⟨hsettings, hexpressions, hsur, hdropped⟩ := Gathered.foldl_choose (c :: back)
        { g with expressions := some ([text] ++ rest), collecting := true }
      exact ⟨hsettings, hexpressions, hsur.trans hsurplus, hdropped.trans hdrop⟩

variable {front back : List Choice}

/-- The invocation that a command line of choices and expressions is. -/
theorem invocation_arguments (hne : texts ≠ []) (htexts : ∀ text ∈ texts, IsOperand text) :
    Invocation.ofWords (arguments front texts back) = .ok ⟨settingsOf (front ++ back), texts⟩ := by
  have hwords : Word.classifyAll (arguments front texts back) =
      .ok (front.flatMap Choice.words ++ (texts.map .operand ++ back.flatMap Choice.words)) := by
    have hall := Word.classifies_append (Word.classifies_choices front)
      (Word.classifies_append (Word.classifies_texts htexts) (Word.classifies_choices back)) []
    rw [List.append_nil, ← List.append_assoc] at hall
    rw [arguments, hall]
    exact congrArg Except.ok (List.append_nil _)
  obtain ⟨hsettings, hexpressions, hsurplus, hdropped⟩ := Gathered.foldl_choose front {}
  obtain ⟨g, hgather, hset, hexp, hsur, hdrop⟩ :=
    gather_texts back hne hexpressions hdropped hsurplus
  have hall : gather (front.flatMap Choice.words ++
      (texts.map .operand ++ back.flatMap Choice.words)) {} = .ok g :=
    (gather_choices front _ rfl).trans hgather
  rw [hsettings] at hset
  rw [settingsOf, List.foldl_append, ← hset, Invocation.ofWords, hwords]
  simp only [hall, bind, Except.bind, hexp, hsur, hdrop, Bool.false_eq_true, if_false]

/-- A command line of choices and expressions is a run over the expressions. -/
theorem run_arguments (host : Host) (hne : texts ≠ [])
    (htexts : ∀ text ∈ texts, IsOperand text) :
    run (arguments front texts back) host =
      .ok (reportAll host (settingsOf (front ++ back)) texts) := by
  rw [run, invocation_arguments hne htexts]

end CommandLine

end TruthExpr
