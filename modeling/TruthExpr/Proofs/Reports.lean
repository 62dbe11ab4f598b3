import TruthExpr.Proofs.Agreement
import TruthExpr.Proofs.Arguments

/-! # Reports — what a command line prints about its expressions

    The report on one expression says one of two things: its tree, in the form
    that was asked for, or nothing but an error.  Which of them it says depends
    on the expression and on that form alone (`reportOne_cases`): the engines
    read the same texts, and what else was chosen only shows in the errors.
    The report on several expressions is theirs put together
    (`reportAll_eq`), so both facts carry over to whole command lines. -/

namespace TruthExpr

namespace Report

@[simp] theorem append_output (r s : Report) : (r.append s).output = r.output ++ s.output := rfl

@[simp] theorem append_errors (r s : Report) : (r.append s).errors = r.errors ++ s.errors := rfl

@[simp] theorem append_status (r s : Report) : (r.append s).status = max r.status s.status := rfl

/-- An empty report behind another one adds nothing to it. -/
@[simp] theorem append_nothing (r : Report) : r.append {} = r := by
  simp [append]

end Report

namespace CommandLine

variable {host : Host} {s t : Settings} {text : String} {texts : List String} {e : Expr}

/-- The text can be printed: it is a sentence and, if it is to be printed as
    JSON, its tree is not too deep for that. -/
def Printable (host : Host) (asJson : Prop) (text : String) : Prop :=
  ∃ e, Derives .expr text.toList e ∧ (asJson → e.toJson.objectDepth ≤ host.jsonDepth)

/-- How a tree is printed. -/
def printed (json : Bool) (e : Expr) : String :=
  (if json then e.toJson.written else e.outline Expr.usualIndent) ++ "\n"

/-- The tree that is printed for an expression, if any is. -/
def printedTree? (host : Host) (s : Settings) (text : String) : Option Expr :=
  match s.engine.read text host.tokenReader with
  | .ok e => if s.json ∧ host.jsonDepth < e.toJson.objectDepth then none else some e
  | .error _ => none

/-! ## One expression -/

/-- A tree is printed, or it is too deep for JSON and only that is said. -/
theorem reportTree_cases (host : Host) (s : Settings) (e : Expr) :
    (¬ (s.json = true ∧ host.jsonDepth < e.toJson.objectDepth) ∧
      reportTree host s e = { output := printed s.json e }) ∨
    ((s.json = true ∧ host.jsonDepth < e.toJson.objectDepth) ∧
      ∃ errors, reportTree host s e = { errors, status := 1 }) := by
  rw [reportTree, printed]
  cases s.json with
  | false => exact Or.inl ⟨fun h => Bool.false_ne_true h.1, rfl⟩
  | true =>
      by_cases hdepth : e.toJson.objectDepth ≤ host.jsonDepth
      · rw [if_pos rfl, if_pos hdepth]
        exact Or.inl ⟨fun h => Nat.not_lt.mpr hdepth h.2, rfl⟩
      · rw [if_pos rfl, if_neg hdepth]
        exact Or.inr ⟨⟨rfl, Nat.not_le.mp hdepth⟩, _, rfl⟩

/-- The report on an expression prints its tree, or says why it cannot. -/
theorem reportOne_cases (host : Host) (s : Settings) (text : String) :
    (∃ e, printedTree? host s text = some e ∧
      reportOne host s text = { output := printed s.json e, errors := trace s text }) ∨
    (printedTree? host s text = none ∧
      ∃ errors, reportOne host s text = { errors, status := 1 }) := by
  rw [reportOne, printedTree?]
  cases s.engine.read text host.tokenReader with
  | error x => exact Or.inr ⟨rfl, _, rfl⟩
  | ok e =>
      dsimp only
      rcases reportTree_cases host s e with ⟨hfits, hreport⟩ | ⟨hdeep, errors, hreport⟩
      · refine Or.inl ⟨e, if_neg hfits, ?_⟩
        rw [hreport]
        simp [Report.append]
      · refine Or.inr ⟨if_pos hdeep, trace s text ++ errors, ?_⟩
        rw [hreport]
        rfl

/-- On the output is the tree that is printed, if one is. -/
theorem output_reportOne (host : Host) (s : Settings) (text : String) :
    (reportOne host s text).output =
      ((printedTree? host s text).map (printed s.json)).getD "" := by
  rcases reportOne_cases host s text with ⟨e, htree, hreport⟩ | ⟨htree, errors, hreport⟩ <;>
    rw [htree, hreport] <;> rfl

/-- The status is 1 where nothing is printed. -/
theorem status_reportOne (host : Host) (s : Settings) (text : String) :
    (reportOne host s text).status = if printedTree? host s text = none then 1 else 0 := by
  rcases reportOne_cases host s text with ⟨e, htree, hreport⟩ | ⟨htree, errors, hreport⟩ <;>
    rw [htree, hreport] <;> rfl

theorem status_reportOne_le (host : Host) (s : Settings) (text : String) :
    (reportOne host s text).status ≤ 1 := by
  rw [status_reportOne]
  split
  · exact Nat.le_refl 1
  · exact Nat.zero_le 1

/-- A run over one expression fails exactly if nothing is printed for it. -/
theorem status_reportOne_eq_one_iff :
    (reportOne host s text).status = 1 ↔ printedTree? host s text = none := by
  rw [status_reportOne]
  split
  · next hnone => exact iff_of_true rfl hnone
  · next hsome => exact iff_of_false Nat.zero_ne_one hsome

/-- What an exact reader makes of a text is printed unless it is too deep. -/
theorem printedTree?_eq_some_iff (hexact : host.tokenReader.Exact) :
    printedTree? host s text = some e ↔
      Derives .expr text.toList e ∧ (s.json = true → e.toJson.objectDepth ≤ host.jsonDepth) := by
  rw [← s.engine.read_ok_iff hexact, printedTree?]
  cases s.engine.read text host.tokenReader with
  | error x => exact iff_of_false (fun h => nomatch h) (fun h => nomatch h.1)
  | ok e₁ =>
      dsimp only
      constructor
      · intro h
        split at h
        · cases h
        · next hfits =>
            cases h
            exact ⟨rfl, fun hjson => Nat.not_lt.mp fun hdeep => hfits ⟨hjson, hdeep⟩⟩
      · rintro ⟨h, hdepth⟩
        cases h
        exact if_neg fun h => Nat.not_lt.mpr (hdepth h.1) h.2

/-- So a text is printed exactly if it can be. -/
theorem printedTree?_eq_none_iff (hexact : host.tokenReader.Exact) :
    printedTree? host s text = none ↔ ¬ Printable host (s.json = true) text := by
  rw [Option.eq_none_iff_forall_ne_some, Printable, not_exists]
  exact forall_congr' fun e => not_congr (printedTree?_eq_some_iff hexact)

/-- Which tree is printed depends on the form it is printed in, and neither on
    the engine nor on anything else. -/
theorem printedTree?_congr (hexact : host.tokenReader.Exact) (h : s.json = t.json)
    (text : String) : printedTree? host s text = printedTree? host t text := by
  refine Option.ext fun e => ?_
  show printedTree? host s text = some e ↔ printedTree? host t text = some e
  rw [printedTree?_eq_some_iff hexact, printedTree?_eq_some_iff hexact, h]

/-- An engine that answers as the grammar says makes no difference to what is
    printed. -/
theorem reportOne_congr (hexact : host.tokenReader.Exact) (h : s.json = t.json) (text : String) :
    (reportOne host s text).output = (reportOne host t text).output ∧
      (reportOne host s text).status = (reportOne host t text).status := by
  rw [output_reportOne, output_reportOne, status_reportOne, status_reportOne,
    printedTree?_congr hexact h, h]
  exact ⟨rfl, rfl⟩

/-- An expression that cannot be printed adds nothing to the output. -/
theorem output_reportOne_of_not_printable (hexact : host.tokenReader.Exact)
    (h : ¬ Printable host (s.json = true) text) : (reportOne host s text).output = "" := by
  rw [output_reportOne, (printedTree?_eq_none_iff hexact).mpr h]
  rfl

/-! ## Several expressions -/

/-- The report on several expressions is the reports on each of them, one
    behind another. -/
theorem reportAll_eq (host : Host) (s : Settings) (texts : List String) :
    (reportAll host s texts).output =
        String.join (texts.map fun text => (reportOne host s text).output) ∧
      (reportAll host s texts).errors =
        String.join (texts.map fun text => (reportOne host s text).errors) := by
  induction texts with
  | nil => exact ⟨rfl, rfl⟩
  | cons text texts ih =>
      obtain ⟨houtput, herrors⟩ := ih
      simp only [reportAll, Report.append_output, Report.append_errors, houtput, herrors,
        List.map_cons, String.join_cons, and_self]

theorem status_reportAll_le (host : Host) (s : Settings) (texts : List String) :
    (reportAll host s texts).status ≤ 1 := by
  induction texts with
  | nil => exact Nat.zero_le 1
  | cons text texts ih => exact Nat.max_le.mpr ⟨status_reportOne_le host s text, ih⟩

/-- A failure is not lost to a later success, nor does it come from anywhere
    else. -/
theorem status_reportAll_eq_one_iff (host : Host) (s : Settings) (texts : List String) :
    (reportAll host s texts).status = 1 ↔ ∃ text ∈ texts, (reportOne host s text).status = 1 := by
  induction texts with
  | nil => exact iff_of_false Nat.zero_ne_one fun ⟨_, h, _⟩ => nomatch h
  | cons text texts ih =>
      have hone := status_reportOne_le host s text
      have hall := status_reportAll_le host s texts
      simp only [List.mem_cons, exists_eq_or_imp]
      rw [← ih, reportAll, Report.append_status]
      omega

/-- There is none if every expression can be printed. -/
theorem status_reportAll_eq_zero_iff (hexact : host.tokenReader.Exact) (s : Settings)
    (texts : List String) :
    (reportAll host s texts).status = 0 ↔
      ∀ text ∈ texts, Printable host (s.json = true) text := by
  have hzero : (reportAll host s texts).status = 0 ↔ ¬ (reportAll host s texts).status = 1 := by
    have hle := status_reportAll_le host s texts
    omega
  rw [hzero, status_reportAll_eq_one_iff, not_exists]
  refine forall_congr' fun text => ?_
  rw [not_and]
  refine forall_congr' fun _ => ?_
  rw [status_reportOne_eq_one_iff, printedTree?_eq_none_iff hexact, Classical.not_not]

/-- Leaving out an expression that cannot be printed leaves the output as it
    is. -/
theorem output_reportAll_without (hexact : host.tokenReader.Exact) {before after : List String}
    (h : ¬ Printable host (s.json = true) text) :
    (reportAll host s (before ++ text :: after)).output =
      (reportAll host s (before ++ after)).output := by
  have hnone := output_reportOne_of_not_printable hexact h
  rw [(reportAll_eq host s _).1, (reportAll_eq host s _).1, List.map_append, List.map_append,
    List.map_cons, String.join_append, String.join_append, String.join_cons, hnone,
    String.empty_append]

/-- With several texts, the engine makes no difference either. -/
theorem reportAll_congr (hexact : host.tokenReader.Exact) (h : s.json = t.json)
    (texts : List String) :
    (reportAll host s texts).output = (reportAll host t texts).output ∧
      (reportAll host s texts).status = (reportAll host t texts).status := by
  induction texts with
  | nil => exact ⟨rfl, rfl⟩
  | cons text texts ih =>
      obtain ⟨houtput, hstatus⟩ := ih
      obtain ⟨houtput₁, hstatus₁⟩ := reportOne_congr hexact h text
      simp only [reportAll, Report.append_output, Report.append_status, houtput, hstatus, houtput₁,
        hstatus₁, and_self]

/-! ## Command lines -/

/-- Whether a text can be printed only depends on whether JSON was chosen. -/
theorem printable_settingsOf (host : Host) (choices : List Choice) (text : String) :
    Printable host ((settingsOf choices).json = true) text ↔
      Printable host (Choice.json ∈ choices) text := by
  rw [Printable, Printable, settingsOf_json]

/-- THE ENGINE DOES NOT SHOW: if the reader of tokens is exact, two command lines
    over the same expressions that both choose JSON, or both do not, print the
    same output and end with the same status, whichever engines they choose, and
    whatever else.  The status is 0 if every expression is a sentence with a
    tree that can be printed in that form, and 1 otherwise. -/
theorem engine_unseen (host : Host) (hexact : host.tokenReader.Exact)
    (front back front₁ back₁ : List Choice) (texts : List String) (hne : texts ≠ [])
    (htexts : ∀ text ∈ texts, IsOperand text)
    (hjson : Choice.json ∈ front ++ back ↔ Choice.json ∈ front₁ ++ back₁) :
    ∃ r r₁, run (arguments front texts back) host = .ok r ∧
      run (arguments front₁ texts back₁) host = .ok r₁ ∧
      r.output = r₁.output ∧ r.status = r₁.status ∧ (r.status = 0 ∨ r.status = 1) ∧
      (r.status = 0 ↔ ∀ text ∈ texts, ∃ e, Derives .expr text.toList e ∧
        (Choice.json ∈ front ++ back → e.toJson.objectDepth ≤ host.jsonDepth)) := by
  have hsame : (settingsOf (front ++ back)).json = (settingsOf (front₁ ++ back₁)).json := by
    rw [Bool.eq_iff_iff, settingsOf_json, settingsOf_json, hjson]
  obtain ⟨houtput, hstatus⟩ := reportAll_congr hexact hsame texts
  refine ⟨_, _, run_arguments host hne htexts, run_arguments host hne htexts, houtput, hstatus,
    ?_, ?_⟩
  · have hle := status_reportAll_le host (settingsOf (front ++ back)) texts
    omega
  · rw [status_reportAll_eq_zero_iff hexact]
    exact forall_congr' fun text => forall_congr' fun _ => printable_settingsOf host _ text

/-- One of three expressions is no sentence, whichever engine is to read it. -/
theorem engine_unseen_refused :
    Host.measured.tokenReader.Exact ∧
    ∃ r r₁, run ["--engine", "lark", "true", "true&&", "!(false)"] = .ok r ∧
      run ["-v", "true", "true&&", "!(false)", "--engine", "combinator"] = .ok r₁ ∧
      r.output = r₁.output ∧ r.status = 1 ∧ r₁.status = 1 := by
  obtain ⟨r, r₁, hr, hr₁, houtput, hstatus, hvalue, hzero⟩ :=
    engine_unseen .measured Machine.exact [.engine .tokens] [] [.verbose] [.engine .descent]
      ["true", "true&&", "!(false)"] (by decide) (by decide) (by decide)
  have hone : r.status = 1 := by
    refine hvalue.resolve_left fun h => ?_
    obtain ⟨e, hd, -⟩ := hzero.mp h "true&&" (by decide)
    exact nomatch Reading.readExpr_ok_iff.mpr hd
  exact ⟨Machine.exact, r, r₁, hr, hr₁, houtput, hone, hstatus.symm.trans hone⟩

/-- EXPRESSIONS ARE INDEPENDENT: with any options, and whatever reads tokens, what
    a command line prints about its expressions, to the output and to the error
    output, is what is printed about each of them alone, in their order, and it
    fails exactly if one of them does alone.  So if the reader of tokens is
    exact, an expression that cannot be printed could as well be left out: the
    output stays as it is. -/
theorem expressions_independent (host : Host) (front back : List Choice) (texts : List String)
    (hne : texts ≠ []) (htexts : ∀ text ∈ texts, IsOperand text) :
    ∃ (r : Report) (alone : String → Report), run (arguments front texts back) host = .ok r ∧
      (∀ text ∈ texts, run (arguments front [text] back) host = .ok (alone text)) ∧
      r.output = String.join (texts.map fun text => (alone text).output) ∧
      r.errors = String.join (texts.map fun text => (alone text).errors) ∧
      (r.status = 0 ∨ r.status = 1) ∧
      (r.status = 1 ↔ ∃ text ∈ texts, (alone text).status = 1) ∧
      (host.tokenReader.Exact →
        ∀ before text after, texts = before ++ text :: after → before ++ after ≠ [] →
          ¬ Printable host (Choice.json ∈ front ++ back) text →
          ∃ r₁, run (arguments front (before ++ after) back) host = .ok r₁ ∧
            r₁.output = r.output) := by
  have halone : ∀ text ∈ texts, run (arguments front [text] back) host =
      .ok (reportOne host (settingsOf (front ++ back)) text) := by
    intro text hmem
    rw [run_arguments host (List.cons_ne_nil text [])
      (List.forall_mem_singleton.mpr (htexts text hmem))]
    exact congrArg Except.ok (Report.append_nothing _)
  obtain ⟨houtput, herrors⟩ := reportAll_eq host (settingsOf (front ++ back)) texts
  have hle := status_reportAll_le host (settingsOf (front ++ back)) texts
  refine ⟨_, _, run_arguments host hne htexts, halone, houtput, herrors, by omega,
    status_reportAll_eq_one_iff host _ texts, ?_⟩
  rintro hexact before text after rfl hrest hno
  rw [← printable_settingsOf] at hno
  refine ⟨_, run_arguments host hrest ?_, (output_reportAll_without hexact hno).symm⟩
  intro other hmem
  rcases List.mem_append.mp hmem with hmem | hmem
  · exact htexts other (List.mem_append_left _ hmem)
  · exact htexts other (List.mem_append_right _ (List.mem_cons_of_mem _ hmem))

/-- The first of two expressions is refused, with an option behind them. -/
theorem expressions_independent_refused :
    Host.measured.tokenReader.Exact ∧
    ∃ r first second, run ["--json", "true||", "!(false)", "--engine", "lark"] = .ok r ∧
      run ["--json", "true||", "--engine", "lark"] = .ok first ∧
      run ["--json", "!(false)", "--engine", "lark"] = .ok second ∧
      r.output = first.output ++ second.output ∧ r.errors = first.errors ++ second.errors ∧
      r.output = second.output := by
  obtain ⟨r, alone, hr, halone, houtput, herrors, -, -, hwithout⟩ :=
    expressions_independent .measured [.json] [.engine .tokens] ["true||", "!(false)"]
      (by decide) (by decide)
  have hfirst := halone "true||" (by decide)
  have hsecond := halone "!(false)" (by decide)
  obtain ⟨r₁, hr₁, hsame⟩ := hwithout Machine.exact [] "true||" ["!(false)"] rfl (by decide)
    fun ⟨e, hd, _⟩ => nomatch Reading.readExpr_ok_iff.mpr hd
  obtain rfl : alone "!(false)" = r₁ := Except.ok.inj (hsecond.symm.trans hr₁)
  refine ⟨Machine.exact, r, _, _, hr, hfirst, hsecond, ?_, ?_, hsame.symm⟩
  · rw [houtput]
    simp [String.join_cons]
  · rw [herrors]
    simp [String.join_cons]

end CommandLine

end TruthExpr
