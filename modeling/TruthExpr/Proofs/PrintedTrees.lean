import TruthExpr.Proofs.Drafts
import TruthExpr.Proofs.Reports
import TruthExpr.Proofs.TreeCode

/-! # Printed trees — what the output of a command line says

    A command line prints the trees of its expressions one behind another, each
    in a self-delimiting code with a line break behind it
    (`selfDelimiting_printed`).  An expression that cannot be printed leaves
    nothing in the output (`output_reportAll_eq`).  So the output tells which
    trees were printed, and in which order. -/

namespace TruthExpr

namespace CommandLine

/-- The trees that are printed for the expressions of an invocation, in order. -/
def Invocation.printedTrees (v : Invocation) (host : Host) : List Expr :=
  v.expressions.filterMap (printedTree? host v.settings)

/-- No printed tree can be taken for another, whatever is printed after it. -/
theorem selfDelimiting_printed (json : Bool) :
    SelfDelimiting fun e => (printed json e).toList := by
  simp only [printed, String.toList_append]
  cases json with
  | false => exact (selfDelimiting_outline Expr.usualIndent).append _
  | true => exact selfDelimiting_written.append _

theorem printed_ne_nil (json : Bool) (e : Expr) : (printed json e).toList ≠ [] := by
  rw [printed, String.toList_append]
  exact List.append_ne_nil_of_right_ne_nil _ (by decide)

/-! ## The output of a command line -/

/-- The output is the printed trees, one behind another. -/
theorem output_reportAll_eq (host : Host) (s : Settings) (texts : List String) :
    (reportAll host s texts).output =
      String.join ((texts.filterMap (printedTree? host s)).map (printed s.json)) := by
  induction texts with
  | nil => rfl
  | cons text texts ih =>
      rw [reportAll, Report.append_output, ih, output_reportOne]
      cases h : printedTree? host s text with
      | none =>
          rw [List.filterMap_cons_none h]
          exact String.empty_append
      | some e =>
          rw [List.filterMap_cons_some h, List.map_cons, String.join_cons]
          rfl

/-- Only the same trees are printed the same. -/
theorem join_printed_injective (json : Bool) {trees trees₁ : List Expr}
    (h : String.join (trees.map (printed json)) = String.join (trees₁.map (printed json))) :
    trees = trees₁ := by
  have hlist := congrArg String.toList h
  rw [String.toList_join, String.toList_join, List.flatMap_map, List.flatMap_map] at hlist
  exact (selfDelimiting_printed json).flatMap_injective (printed_ne_nil json) hlist

/-- The output of an invocation is the trees that are printed for it. -/
theorem run_of_invocation (host : Host) {args : List String} {v : Invocation}
    (h : Invocation.ofWords args = .ok v) :
    ∃ r, run args host = .ok r ∧
      r.output = String.join ((v.printedTrees host).map (printed v.settings.json)) :=
  ⟨reportAll host v.settings v.expressions, by rw [run, h], output_reportAll_eq ..⟩

/-- Every expression that is read is printed in outline. -/
theorem printedTrees_of_outline {host : Host} {v : Invocation} {trees : List Expr}
    (hjson : v.settings.json = false)
    (h : (v.expressions.map fun text => v.settings.engine.read text host.tokenReader) =
      trees.map .ok) : v.printedTrees host = trees := by
  have htree : printedTree? host v.settings =
      fun text => (v.settings.engine.read text host.tokenReader).toOption := by
    funext text
    rw [printedTree?, hjson]
    cases v.settings.engine.read text host.tokenReader with
    | error x => rfl
    | ok e => exact if_neg fun h => Bool.false_ne_true h.1
  have hmap := congrArg (List.filterMap Except.toOption) h
  rw [List.filterMap_map, List.filterMap_map] at hmap
  rw [Invocation.printedTrees, htree]
  exact hmap.trans List.filterMap_some

end CommandLine

/-! ## Headlines -/

/-- OUTLINES ARE SELF-DELIMITING: whatever the indent, a text begins with the
    outline of one tree at most, as the walk over the tree writes it.  So two
    command lines that print outlines, and can read all their expressions, only
    print the same if they have read the same trees, in the same order.  What
    reads tokens for them does not matter. -/
theorem outlines_self_delimiting :
    (∀ (indent : String) (e : Expr),
      (Draft.ofExpr e).outline indent = .ok (e.outline indent)) ∧
    (∀ (indent : String) (t u : Expr) (x y : String),
      t.outline indent ++ x = u.outline indent ++ y → t = u ∧ x = y) ∧
    (∀ (host : CommandLine.Host) (args args₁ : List String) (v v₁ : CommandLine.Invocation)
      (trees trees₁ : List Expr),
      CommandLine.Invocation.ofWords args = .ok v →
      CommandLine.Invocation.ofWords args₁ = .ok v₁ →
      v.settings.json = false → v₁.settings.json = false →
      (v.expressions.map fun text => v.settings.engine.read text host.tokenReader) =
        trees.map .ok →
      (v₁.expressions.map fun text => v₁.settings.engine.read text host.tokenReader) =
        trees₁.map .ok →
      ∃ r r₁, CommandLine.run args host = .ok r ∧ CommandLine.run args₁ host = .ok r₁ ∧
        (r.output = r₁.output → trees = trees₁)) := by
  refine ⟨fun indent e => (Draft.walks_ofExpr e indent).2.1,
    fun indent _ _ _ _ h => (selfDelimiting_outline indent).eq_of_append h, ?_⟩
  intro host args args₁ v v₁ trees trees₁ h h₁ hjson hjson₁ hread hread₁
  obtain ⟨r, hr, houtput⟩ := CommandLine.run_of_invocation host h
  obtain ⟨r₁, hr₁, houtput₁⟩ := CommandLine.run_of_invocation host h₁
  rw [CommandLine.printedTrees_of_outline hjson hread, hjson] at houtput
  rw [CommandLine.printedTrees_of_outline hjson₁ hread₁, hjson₁] at houtput₁
  refine ⟨r, r₁, hr, hr₁, fun heq => CommandLine.join_printed_injective false ?_⟩
  rw [← houtput, ← houtput₁, heq]

/-- An indent that reads like a line of its own does not hide where a tree ends;
    and two command lines whose trees differ in one leaf print different
    outlines. -/
theorem outlines_self_delimiting_lookalike :
    (∀ (u : Expr) (y : String), "Not\n\nNotoperand: Literal(true)\nNot" = u.outline "\nNot" ++ y →
      u = .not (.literal true) ∧ y = "\nNot") ∧
    ∃ r r₁, CommandLine.run ["!true", "true&&false"] = .ok r ∧
      CommandLine.run ["--engine", "lark", "!(true)", "true&&true"] = .ok r₁ ∧
      r.output ≠ r₁.output := by
  constructor
  · intro u y h
    have houtline : (Expr.not (.literal true)).outline "\nNot" ++ "\nNot" =
        "Not\n\nNotoperand: Literal(true)\nNot" := by decide
    obtain ⟨hu, hy⟩ := outlines_self_delimiting.2.1 _ _ u _ y (houtline.trans h)
    exact ⟨hu.symm, hy.symm⟩
  · obtain ⟨r, r₁, hr, hr₁, hsame⟩ := outlines_self_delimiting.2.2 .measured
      ["!true", "true&&false"] ["--engine", "lark", "!(true)", "true&&true"]
      ⟨{}, ["!true", "true&&false"]⟩ ⟨{ engine := .tokens }, ["!(true)", "true&&true"]⟩
      [.not (.literal true), .and (.literal true) (.literal false)]
      [.not (.literal true), .and (.literal true) (.literal true)] rfl rfl rfl rfl rfl rfl
    exact ⟨r, r₁, hr, hr₁, fun heq => absurd (hsame heq) (by decide)⟩

/-- WRITTEN OBJECTS ARE SELF-DELIMITING: a text begins with the written object
    of one tree at most, the object being the one that the walk over the tree
    fills in.  The output of a command line that prints JSON is a line for each
    tree that is printed, and another command line only has the same output if
    it prints the same trees, in the same order. -/
theorem objects_self_delimiting :
    (∀ e : Expr, (Draft.ofExpr e).toJson = .ok e.toJson) ∧
    (∀ (t u : Expr) (x y : String),
      t.toJson.written ++ x = u.toJson.written ++ y → t = u ∧ x = y) ∧
    (∀ (host : CommandLine.Host) (args : List String) (v : CommandLine.Invocation),
      CommandLine.Invocation.ofWords args = .ok v → v.settings.json = true →
      ∃ r, CommandLine.run args host = .ok r ∧
        r.output = String.join ((v.printedTrees host).map fun e => e.toJson.written ++ "\n") ∧
        ∀ (args₁ : List String) (v₁ : CommandLine.Invocation) (r₁ : Report),
          CommandLine.Invocation.ofWords args₁ = .ok v₁ → v₁.settings.json = true →
          CommandLine.run args₁ host = .ok r₁ → r.output = r₁.output →
          v.printedTrees host = v₁.printedTrees host) := by
  refine ⟨fun e => (Draft.walks_ofExpr e "").1,
    fun _ _ _ _ h => selfDelimiting_written.eq_of_append h, ?_⟩
  intro host args v h hjson
  obtain ⟨r, hr, houtput⟩ := CommandLine.run_of_invocation host h
  rw [hjson] at houtput
  refine ⟨r, hr, houtput, ?_⟩
  intro args₁ v₁ r₁ h₁ hjson₁ hr₁ heq
  obtain ⟨r₂, hr₂, houtput₁⟩ := CommandLine.run_of_invocation host h₁
  obtain rfl : r₁ = r₂ := Except.ok.inj (hr₁.symm.trans hr₂)
  rw [hjson₁] at houtput₁
  exact CommandLine.join_printed_injective true (houtput.symm.trans (heq.trans houtput₁))

/-- Of two expressions that cannot be read, nothing is left in the output; the
    trees of the others can be told from it. -/
theorem objects_self_delimiting_unread :
    ∃ r r₁, CommandLine.run ["--json", "true&&", "!true"] = .ok r ∧
      CommandLine.run ["--json", "!false", "||"] = .ok r₁ ∧
      r.output = (Expr.not (.literal true)).toJson.written ++ "\n" ∧ r.output ≠ r₁.output := by
  obtain ⟨r, hr, houtput, hsame⟩ := objects_self_delimiting.2.2 .measured
    ["--json", "true&&", "!true"] ⟨{ json := true }, ["true&&", "!true"]⟩ rfl rfl
  have hr₁ : CommandLine.run ["--json", "!false", "||"] =
      .ok (CommandLine.reportAll .measured { json := true } ["!false", "||"]) := rfl
  have htrees : CommandLine.Invocation.printedTrees ⟨{ json := true }, ["true&&", "!true"]⟩
      .measured = [.not (.literal true)] := rfl
  have htrees₁ : CommandLine.Invocation.printedTrees ⟨{ json := true }, ["!false", "||"]⟩
      .measured = [.not (.literal false)] := rfl
  refine ⟨r, _, hr, hr₁, ?_, fun heq => ?_⟩
  · rw [houtput, htrees, List.map_cons, List.map_nil, String.join_cons, String.join_nil,
      String.append_empty]
  · have htree := hsame _ ⟨{ json := true }, ["!false", "||"]⟩ _ rfl rfl hr₁ heq
    rw [htrees, htrees₁] at htree
    exact absurd htree (by decide)

end TruthExpr
